import SpendScript.Bytes
import SpendScript.Commas
import SpendScript.Digest
import SpendScript.Digest.Block
import SpendScript.Digest.Ripemd160
import SpendScript.Digest.Sha1
import SpendScript.Digest.Sha256
import SpendScript.Flags
import SpendScript.Instruction
import SpendScript.Limits
import SpendScript.Machine.Arithmetic
import SpendScript.Machine.Calculation
import SpendScript.Machine.Conditionals
import SpendScript.Machine.Context
import SpendScript.Machine.Run
import SpendScript.Machine.Shuffling
import SpendScript.Machine.SignatureChecks
import SpendScript.Machine.Step
import SpendScript.Machine.Structured
import SpendScript.Number
import SpendScript.Number.SignMagnitude
import SpendScript.Number.Words
import SpendScript.Script.Decoding
import SpendScript.Script.MinimalPush
import SpendScript.Script.Nesting
import SpendScript.Script.Operation
import SpendScript.Script.Removal
import SpendScript.Script.Template
import SpendScript.ScriptError
import SpendScript.Secp256k1.Ecdsa
import SpendScript.Secp256k1.Field
import SpendScript.Secp256k1.Point
import SpendScript.Secp256k1.PublicKey
import SpendScript.Signature.ByteChecks
import SpendScript.Signature.EncodingRules
import SpendScript.Signature.LaxDer
import SpendScript.Signature.StrictDer
import SpendScript.Spend.Stage
import SpendScript.Spend.Verdict
import SpendScript.Spend.Verify
import SpendScript.Stack
import SpendScript.Stack.Indexed
import SpendScript.Transaction
import SpendScript.Transaction.Checker
import SpendScript.Transaction.CompactSize
import SpendScript.Transaction.Encoding
import SpendScript.Transaction.Reading
import SpendScript.Transaction.SignatureHash
import SpendScript.Proofs.AcceptedScripts
import SpendScript.Proofs.ByteOrder
import SpendScript.Proofs.CanonicalTransactions
import SpendScript.Proofs.Commitments
import SpendScript.Proofs.Concatenation
import SpendScript.Proofs.DeeperStacks
import SpendScript.Proofs.DerForms
import SpendScript.Proofs.DerIntegers
import SpendScript.Proofs.EncodingRules
import SpendScript.Proofs.ExactArithmetic
import SpendScript.Proofs.FailedOperations
import SpendScript.Proofs.FilteredScripts
import SpendScript.Proofs.Frames
import SpendScript.Proofs.KeyMatching
import SpendScript.Proofs.LaxReadings
import SpendScript.Proofs.MinimalPushes
import SpendScript.Proofs.MirroredSignatures
import SpendScript.Proofs.MultiSigEffects
import SpendScript.Proofs.NamedFlags
import SpendScript.Proofs.NestedConditionals
import SpendScript.Proofs.NestedRuns
import SpendScript.Proofs.NumberWords
import SpendScript.Proofs.OpcodeTable
import SpendScript.Proofs.Operands
import SpendScript.Proofs.OperationLimits
import SpendScript.Proofs.Outcomes
import SpendScript.Proofs.PushOnlyRuns
import SpendScript.Proofs.QuestionLimits
import SpendScript.Proofs.Questions
import SpendScript.Proofs.Rearrangements
import SpendScript.Proofs.RefusedPushes
import SpendScript.Proofs.ResourceLimits
import SpendScript.Proofs.ReusedContexts
import SpendScript.Proofs.ScriptHashSpends
import SpendScript.Proofs.SeparateScripts
import SpendScript.Proofs.Serialization
import SpendScript.Proofs.ShortestNumbers
import SpendScript.Proofs.ShortestPushes
import SpendScript.Proofs.SignatureRemoval
import SpendScript.Proofs.SignatureRules
import SpendScript.Proofs.SignedCode
import SpendScript.Proofs.StackDepths
import SpendScript.Proofs.StackEffects
import SpendScript.Proofs.StrictSignatures
import SpendScript.Proofs.StructuredRuns
import SpendScript.Proofs.Tightening
import SpendScript.Proofs.TruthValues
import SpendScript.Proofs.ValidSpends
import SpendScript.Proofs.VerificationLog
