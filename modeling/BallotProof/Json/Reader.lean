import BallotProof.Json.Token

/-!
# Reading json

A text is read token by token. The containers that are still open form a stack, and what may come
next is an `Expect`. At most `Reader.maxDepth` containers are open at a time: a text that is nested
deeper is refused, so that no value is deeper than that.

* `Json.ofText?` reads a text that holds one value and nothing else.
* `Reader.length_stack_step` : the limit is kept from token to token.
-/

namespace BallotProof

namespace Json

/-- A container that is still open, its items or members in reverse order of reading. -/
inductive Frame where
  /-- An array. -/
  | array (items : List Json)
  /-- An object. -/
  | object (members : Members)
  /-- An object that waits for the value of `key`. -/
  | member (members : Members) (key : String)

/-- What may come next. -/
inductive Expect where
  /-- A value. -/
  | value
  /-- A value or the end of an array that has just been opened. -/
  | valueOrEnd
  /-- A key. -/
  | key
  /-- A key or the end of an object that has just been opened. -/
  | keyOrEnd
  /-- A colon. -/
  | colon
  /-- A comma or the end of the innermost container; the end of the text if there is none. -/
  | separator (last : Json)

/-- The state of a reader. -/
structure Reader where
  /-- The open containers, innermost first. -/
  stack : List Frame
  /-- What may come next. -/
  expect : Expect

namespace Reader

/-- A value is complete. -/
def complete (stack : List Frame) (value : Json) : Reader :=
  match stack with
  | .array items :: rest => ⟨.array (value :: items) :: rest, .separator value⟩
  | .member members key :: rest => ⟨.object (put key value members) :: rest, .separator value⟩
  | stack => ⟨stack, .separator value⟩

/-- The innermost container is closed by `c`. -/
def close (stack : List Frame) (c : Char) : Option Reader :=
  match stack, c with
  | .array items :: rest, ']' => some (complete rest (.array items.reverse))
  | .object members :: rest, '\x7d' => some (complete rest (.object members))
  | _, _ => none

/-- The number of containers that may be open at a time. -/
def maxDepth : Nat := 127

/-- A container is opened inside `stack`, which must not be full. -/
def openFrame (frame : Frame) (stack : List Frame) (expect : Expect) : Option Reader :=
  if stack.length < maxDepth then some ⟨frame :: stack, expect⟩ else none

/-- A value starts with `token`. -/
def startValue (stack : List Frame) : Token → Option Reader
  | .scalar value => some (complete stack value)
  | .mark '[' => openFrame (.array []) stack .valueOrEnd
  | .mark '\x7b' => openFrame (.object []) stack .keyOrEnd
  | .mark _ => none

/-- A key is read. -/
def startMember (stack : List Frame) : Token → Option Reader
  | .scalar (.string key) =>
    match stack with
    | .object members :: rest => some ⟨.member members key :: rest, .colon⟩
    | _ => none
  | _ => none

/-- One token. -/
def step (r : Reader) (token : Token) : Option Reader :=
  match r.expect, token with
  | .value, token => startValue r.stack token
  | .valueOrEnd, .mark ']' => close r.stack ']'
  | .valueOrEnd, token => startValue r.stack token
  | .key, token => startMember r.stack token
  | .keyOrEnd, .mark '\x7d' => close r.stack '\x7d'
  | .keyOrEnd, token => startMember r.stack token
  | .colon, .mark ':' => some ⟨r.stack, .value⟩
  | .colon, _ => none
  | .separator _, .mark ',' =>
    match r.stack with
    | .array _ :: _ => some ⟨r.stack, .value⟩
    | .object _ :: _ => some ⟨r.stack, .key⟩
    | _ => none
  | .separator _, .mark c => close r.stack c
  | .separator _, _ => none

theorem length_stack_complete (stack : List Frame) (value : Json) :
    (complete stack value).stack.length = stack.length := by
  unfold complete
  split <;> rfl

theorem length_stack_close {stack : List Frame} {c : Char} {r : Reader}
    (h : close stack c = some r) : r.stack.length < stack.length := by
  unfold close at h
  split at h <;> cases h <;> simp [length_stack_complete]

theorem length_stack_startValue {stack : List Frame} {token : Token} {r : Reader}
    (hd : stack.length ≤ maxDepth) (h : startValue stack token = some r) :
    r.stack.length ≤ maxDepth := by
  have hopen {frame expect} (h : openFrame frame stack expect = some r) :
      r.stack.length ≤ maxDepth := by
    unfold openFrame at h
    split at h <;> cases h
    assumption
  unfold startValue at h
  split at h
  · cases h
    rwa [length_stack_complete]
  · exact hopen h
  · exact hopen h
  · cases h

theorem length_stack_startMember {stack : List Frame} {token : Token} {r : Reader}
    (h : startMember stack token = some r) : r.stack.length = stack.length := by
  unfold startMember at h
  split at h
  · split at h <;> cases h
    rfl
  · cases h

/-- No step opens more containers than `maxDepth`. -/
theorem length_stack_step {r r' : Reader} {token : Token}
    (hd : r.stack.length ≤ maxDepth) (h : r.step token = some r') :
    r'.stack.length ≤ maxDepth := by
  unfold step at h
  split at h
  · exact length_stack_startValue hd h
  · exact Nat.le_trans (Nat.le_of_lt (length_stack_close h)) hd
  · exact length_stack_startValue hd h
  · exact Nat.le_trans (Nat.le_of_eq (length_stack_startMember h)) hd
  · exact Nat.le_trans (Nat.le_of_lt (length_stack_close h)) hd
  · exact Nat.le_trans (Nat.le_of_eq (length_stack_startMember h)) hd
  · cases h
    exact hd
  · cases h
  · split at h <;> cases h <;> exact hd
  · exact Nat.le_trans (Nat.le_of_lt (length_stack_close h)) hd
  · cases h

end Reader

/-- The value that the tokens spell. -/
def ofTokens? (tokens : List Token) : Option Json := do
  let r ← tokens.foldlM Reader.step ⟨[], .value⟩
  match r.stack, r.expect with
  | [], .separator value => return value
  | _, _ => none

/-- The value that a text spells. -/
def ofText? (text : String) : Option Json := do
  let tokens ← Token.scan text.toList
  ofTokens? tokens

end Json

end BallotProof
