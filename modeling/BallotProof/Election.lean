import BallotProof.Diagnostic
import BallotProof.KeyPair
import BallotProof.SchnorrGroup.Search

/-!
# A sample election

Every voter marks the same number of selections of a contest. Each selection is encrypted and proven
to be zero or one, and each ballot is proven to sum up to the number of marks. At the end the
selections are tallied without opening a ballot, and what is decrypted is compared with the true
tally. All that is drawn at random is a parameter.

* `Contest` and `Voter` : what is voted on, and what a voter chooses and draws.
* `Election.castSelection`, `castBallot` and `countSelection` are the steps of the election, which
  stops at the first failure.
* `Election.run` is the election for a given group and key pair, `Election.simple` the one for a
  fresh group and key pair.
-/

namespace BallotProof

/-- A contest in which every voter marks the same number of selections. -/
structure Contest where
  /-- The number of selections. -/
  selections : Nat
  /-- The number of selections that a voter marks. -/
  limit : Nat
  limit_le : limit ≤ selections

namespace Contest

/-- The votes before they are shuffled: one for each mark, zero for the other selections. -/
def marks (contest : Contest) : List Nat :=
  List.replicate contest.limit 1 ++ List.replicate (contest.selections - contest.limit) 0

/-- Two of four selections. -/
def sample : Contest := ⟨4, 2, by decide⟩

end Contest

/-- The vote for a selection, and what is drawn for it. -/
structure Choice where
  /-- One if the selection is marked, zero otherwise. -/
  vote : Nat
  /-- The draws for the nonce. -/
  nonces : List Word
  /-- The draw for the seed of the proof. -/
  seed : Word

/-- The ballot of a voter, shuffled, and what is drawn for it. -/
structure Voter (contest : Contest) where
  /-- The selections in order. -/
  choices : List Choice
  /-- The draw for the seed of the proof about the whole ballot. -/
  seed : Word
  shuffled : (choices.map Choice.vote).Perm contest.marks

/-- Why an election stops. -/
inductive ElectionError where
  /-- No group was found. -/
  | group (cause : GroupError)
  /-- The draws hold no nonce. -/
  | noNonce
  /-- Encryption refuses the nonce. -/
  | refusedNonce
  /-- The prover refuses the vote. -/
  | refusedVote (cause : ProofError)
  /-- The proof about a selection is invalid. -/
  | selection (index : Nat)
  /-- The proof about a ballot is invalid. -/
  | limit
  /-- The decrypted tally of a selection is not the true one. -/
  | tally (index : Nat)
deriving DecidableEq

/-- The text of the error. -/
def ElectionError.message : ElectionError → String
  | .group cause => cause.message
  | .noNonce => "the draws hold no nonce"
  | .refusedNonce => "nonce must be a non-zero scalar"
  | .refusedVote cause => cause.message
  | .selection index =>
    "Selection " ++ toString index ++ " failed to prove that it is zero or one"
  | .limit => "Ballot failed to prove the selection limit"
  | .tally index => "the tally of selection " ++ toString index ++ " is incorrect!"

/-- The printed lines. -/
structure Printed where
  /-- The lines of the output. -/
  out : List String := []
  /-- The lines of the error output. -/
  err : List String := []
deriving DecidableEq

namespace Election

/-- Steps of an election print lines and may stop it. -/
abbrev Step := ExceptT ElectionError (StateM Printed)

/-- Prints a line. -/
def print (line : String) : Step Unit :=
  modify fun p => { p with out := p.out ++ [line] }

/-- The sink that prints the failed checks. -/
def printSink (d : Diagnostic) : Step Unit :=
  let line := d.message ++ ": failed " ++ Text.quoteList d.checks.failed
  modify fun p => { p with err := p.err ++ [line] }

variable (H : HashFunction) (G : SchnorrGroup)

/-- The first draw that is not zero when it is reduced. -/
def nonce? (draws : List Word) : Option Scalar :=
  (draws.map G.reduce).find? (· ≠ 0)

/-- Encrypts the vote for the selection at an index and proves that it is zero or one. The result is
the ciphertext and its nonce. -/
def castSelection (key : Element) (choice : Choice) (index : Nat) : Step (Ciphertext × Scalar) := do
  let some nonce := nonce? G choice.nonces | throw .noNonce
  let some x := Ciphertext.encrypt? G choice.vote nonce key | throw .refusedNonce
  match DisjunctiveProof.prove H G x nonce key (G.reduce choice.seed) choice.vote with
  | .error cause => throw (.refusedVote cause)
  | .ok proof =>
    unless ← (Proof.disjunctive proof).verifyWith H G x key printSink do throw (.selection index)
    return (x, nonce)

variable {contest : Contest}

/-- Casts all selections of a ballot and proves that their sum is the limit of the contest. -/
def castBallot (key : Element) (voter : Voter contest) : Step (List Ciphertext) := do
  let cast ← voter.choices.zipIdx.mapM fun (choice, index) => castSelection H G key choice index
  let ballot := cast.map Prod.fst
  let nonce := (cast.map Prod.snd).foldl G.add 0
  let x := Ciphertext.aggregate G ballot
  let proof :=
    ConstantProof.prove H G x (Int64.ofNat contest.limit) nonce key (G.reduce voter.seed)
  unless ← (Proof.constant proof).verifyWith H G x key printSink do throw .limit
  return ballot

/-- The votes for each selection, added up voter by voter. -/
def trueTally (voters : List (Voter contest)) : List Nat :=
  voters.foldl (fun tally voter => List.zipWith (· + ·) tally (voter.choices.map Choice.vote))
    (List.replicate contest.selections 0)

/-- The line that announces the votes for the selection at an index. -/
def tallyLine (votes index : Nat) : String :=
  "selection " ++ toString index ++ ": " ++ toString votes ++ " votes"

/-- Decrypts the aggregate of the ciphertexts for the selection at an index, which has to give the
expected number of votes. -/
def countSelection (secret : Scalar) (ballots : List (List Ciphertext)) (expected index : Nat) :
    Step Unit := do
  let column := ballots.filterMap fun ballot => ballot[index]?
  let tally := Ciphertext.aggregate G column
  unless tally.decrypt? G secret (ballots.length + 1) = some expected do throw (.tally index)
  print (tallyLine expected index)

/-- The election: all ballots are cast, then all selections are counted. -/
def run (keys : KeyPair) (voters : List (Voter contest)) : Step Unit := do
  print G.display
  let ballots ← voters.mapM (castBallot H G keys.publicKey)
  (trueTally voters).zipIdx.forM fun (expected, index) =>
    countSelection G keys.secretKey ballots expected index
  print "The election is a success!"

/-- Whether the election succeeds, and what is printed; a failure is printed at the end. -/
def finish : Except ElectionError Unit × Printed → Bool × Printed
  | (.ok (), p) => (true, p)
  | (.error e, p) => (false, { p with err := p.err ++ [e.message] })

/-- The sample election for a fresh group, with an order of 64 bits and a modulus of 256 bits, and
the first secret key drawn for it; `none` if the draws do not contain them. -/
def simple (isPrime : Word → Bool) (draws : Draws) (attempts : Nat) (secrets : List Word)
    (voters : List (Voter .sample)) : Option (Bool × Printed) := do
  match ← SchnorrGroup.search isPrime draws attempts 64 256 with
  | .error cause => return finish (.error (.group cause), {})
  | .ok G =>
    let keys ← KeyPair.ofDraws? G secrets
    return finish ((run H G keys voters).run.run {})

end Election

end BallotProof
