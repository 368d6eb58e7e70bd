import BallotProof.Json.Forms
import BallotProof.Json.Reader
import BallotProof.Json.Writer
import BallotProof.KeyPair
import BallotProof.NonceStream.Calls
import BallotProof.Proofs.Binding
import BallotProof.Proofs.BitLengths
import BallotProof.Proofs.Builders
import BallotProof.Proofs.ByteWindows
import BallotProof.Proofs.Completeness
import BallotProof.Proofs.Congruence
import BallotProof.Proofs.Decryption
import BallotProof.Proofs.Dumps
import BallotProof.Proofs.Election
import BallotProof.Proofs.FalseClaims
import BallotProof.Proofs.FreshGroups
import BallotProof.Proofs.HashInputs
import BallotProof.Proofs.HexGrammar
import BallotProof.Proofs.HexSpellings
import BallotProof.Proofs.HexText
import BallotProof.Proofs.Interleaving
import BallotProof.Proofs.JsonForms
import BallotProof.Proofs.Logarithms
import BallotProof.Proofs.Malleability
import BallotProof.Proofs.Relations
import BallotProof.Proofs.Reports
import BallotProof.Proofs.Representatives
import BallotProof.Proofs.ScalarArithmetic
import BallotProof.Proofs.SeedReuse
import BallotProof.Proofs.Simulation
import BallotProof.Proofs.Soundness
import BallotProof.Proofs.Subgroup
import BallotProof.Proofs.Tally
import BallotProof.Proofs.Tampering
import BallotProof.Proofs.Uniqueness
import BallotProof.Proofs.Validation
import BallotProof.RandomWords
import BallotProof.Sha3
import BallotProof.Tamper
