import SpendScript.Bytes

/-!
# Transactions

A transaction spends earlier outputs through its inputs and creates outputs. An input names the
output it spends, carries a script that unlocks it and may carry a witness.
-/
set_option autoImplicit false

namespace SpendScript

/-- The output that an input spends: 32 bytes that identify a transaction, and a position in it. -/
structure OutPoint where
  txid : Bytes
  index : UInt32
  deriving DecidableEq, Repr

structure TxInput where
  outPoint : OutPoint
  script : Bytes
  sequence : UInt32
  witness : List Bytes := []
  deriving DecidableEq, Repr

structure TxOutput where
  value : UInt64
  script : Bytes
  deriving DecidableEq, Repr

structure Transaction where
  version : Int32
  inputs : List TxInput
  outputs : List TxOutput
  lockTime : UInt32
  deriving DecidableEq

end SpendScript
