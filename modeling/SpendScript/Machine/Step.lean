import SpendScript.Machine.Shuffling
import SpendScript.Machine.SignatureChecks
import SpendScript.Script.MinimalPush

/-!
# Steps

What one operation does to a context. The checks come in a fixed order: the size of a push, the
count of operations, instructions that are switched off, then the operation itself, which in a
branch that is not taken happens only for conditionals, and last the depth of the stacks.
-/
set_option autoImplicit false

namespace SpendScript

namespace Context

/-- Opens a conditional. Where operations are skipped it takes nothing from the stack and its
branch is skipped. -/
def openIf (ctx : Context) (negated : Bool) : Outcome :=
  if ctx.isExecuting then
    match ctx.stack with
    | x :: rest =>
      { ctx with stack := rest }.setConditionals
        (ctx.conditionals.push (SignMagnitude.truthy x != negated))
    | [] => .fail .unbalancedConditional ctx
  else ctx.setConditionals (ctx.conditionals.push false)

/-- Copies or moves to the top the element at a depth that the top gives. A depth that is not there
is noticed after the top is gone. -/
def pickOrRoll (ctx : Context) (flags : Flags) (move : Bool) : Outcome :=
  match ctx.stack with
  | x :: y :: rest =>
    match flags.readNumber x with
    | .ok n =>
      let ctx := { ctx with stack := y :: rest }
      match n.value.toNat? with
      | some depth =>
        .ofStack ctx <|
          if move then (ctx.stack.remove depth).map fun (item, others) => item :: others
          else (ctx.stack.top depth).map fun item => item :: ctx.stack
      | none => .fail .invalidStackOperation ctx
    | .error error => .fail error ctx
  | _ => .fail .invalidStackOperation ctx

/-- Does a push, or only checks its size where operations are skipped. -/
def pushData (ctx : Context) (flags : Flags) (form : PushForm) (data : Bytes) : Outcome :=
  if Limits.elementSize < data.length then .fail .pushSize ctx
  else if !ctx.isExecuting then .ok ctx
  else if flags.minimalData && !Script.isMinimalPush (form.opcode data.length) data then
    .fail .minimalData ctx
  else .ok (ctx.push data)

end Context

/-- Does what an instruction asks for, at its index in the script. -/
def Instruction.run (instruction : Instruction) (env : Environment) (script : Script)
    (index : Nat) (ctx : Context) : Outcome :=
  match instruction with
  | .push | .versionIf | .reserved => .fail .badOpcode ctx
  | .disabled => .fail .disabledOpcode ctx
  | .pushNumber n => .ok (ctx.push (SignMagnitude.encode n))
  | .nop => .ok ctx
  | .upgradableNop =>
    if env.flags.discourageUpgradableNops then .fail .discourageUpgradableNops ctx else .ok ctx
  | .openIf negated => ctx.openIf negated
  | .otherwise => ctx.setConditionals ctx.conditionals.toggle
  | .endIf => ctx.setConditionals ctx.conditionals.pop
  | .verify =>
    match ctx.stack with
    | x :: rest =>
      if SignMagnitude.truthy x then .ok { ctx with stack := rest } else .fail .verify ctx
    | [] => .fail .invalidStackOperation ctx
  | .ret => .fail .opReturn ctx
  | .toAltStack =>
    match ctx.stack with
    | x :: rest => .ok { ctx with stack := rest, altStack := x :: ctx.altStack }
    | [] => .fail .invalidStackOperation ctx
  | .fromAltStack =>
    match ctx.altStack with
    | x :: rest => .ok { ctx with stack := x :: ctx.stack, altStack := rest }
    | [] => .fail .invalidAltstackOperation ctx
  | .shuffle op => .ofStack ctx (op.apply ctx.stack)
  | .depth => .ok (ctx.push (SignMagnitude.encode ctx.stack.length))
  | .pick => ctx.pickOrRoll env.flags false
  | .roll => ctx.pickOrRoll env.flags true
  | .size =>
    match ctx.stack with
    | x :: _ => .ok (ctx.push (SignMagnitude.encode x.length))
    | [] => .fail .invalidStackOperation ctx
  | .equal demand =>
    match ctx.stack with
    | y :: x :: rest => .conclude { ctx with stack := rest } demand .equalVerify (x == y)
    | _ => .fail .invalidStackOperation ctx
  | .unary op => .ofStack ctx (op.run env.flags ctx.stack)
  | .binary op => .ofStack ctx (op.run env.flags ctx.stack)
  | .numEqualVerify =>
    match env.flags.readTwo ctx.stack with
    | .ok (a, b, rest) =>
      .conclude { ctx with stack := rest } true .numEqualVerify (a.value == b.value)
    | .error error => .fail error ctx
  | .within => .ofStack ctx (ctx.stack.within env.flags)
  | .hash h =>
    match ctx.stack with
    | x :: rest => .ok { ctx with stack := env.hashing.digest h x :: rest }
    | [] => .fail .invalidStackOperation ctx
  | .codeSeparator => .ok { ctx with codeStart := index + 1 }
  | .checkSig demand => ctx.checkSig env script demand
  | .checkMultiSig demand => ctx.checkMultiSig env script demand

namespace Operation

/-- Counts the operation, if it is one that counts. -/
def count (op : Operation) (ctx : Context) : Outcome :=
  if op.countsTowardLimit then ctx.countOps 1 else .ok ctx

/-- Does the operation at an index of the script, without the check of the depth that ends a
step. -/
def run (op : Operation) (env : Environment) (script : Script) (index : Nat) (ctx : Context) :
    Outcome :=
  match op with
  | .push form data => ctx.pushData env.flags form data
  | .code opcode =>
    (op.count ctx).andThen fun ctx =>
      let instruction := Instruction.ofOpcode opcode
      if instruction = .disabled then .fail .disabledOpcode ctx
      else if ctx.isExecuting || instruction.isConditional then
        instruction.run env script index ctx
      else .ok ctx

/-- One step of a script: the operation at an index, then the check of the depth. -/
def step (op : Operation) (env : Environment) (script : Script) (index : Nat) (ctx : Context) :
    Outcome :=
  (op.run env script index ctx).andThen Context.checkDepth

end Operation
end SpendScript
