import SpendScript.Digest
import SpendScript.Flags
import SpendScript.Machine.Conditionals
import SpendScript.Stack
import SpendScript.Transaction.Checker

/-!
# Contexts and outcomes

What a run of operations reads and changes. The environment holds the flags, the checker and the
hash functions; the context holds both stacks, the open conditionals, the count of operations and
the place from which on signatures commit to the script. An outcome keeps the context as it was when
evaluation ended, also after a failure, and every question put to the checker, in order.
-/
set_option autoImplicit false

namespace SpendScript

structure Environment where
  flags : Flags := Flags.empty
  checker : SignatureChecker := SignatureChecker.refuseAll
  hashing : Hashing := Hashing.standard

structure Context where
  stack : Stack := []
  altStack : Stack := []
  conditionals : Conditionals := {}
  /-- Operations counted against the limit. -/
  opCount : Nat := 0
  /-- The index of the first operation that signatures commit to. -/
  codeStart : Nat := 0
  deriving DecidableEq, Repr

namespace Context

/-- The context in which a script starts on a stack. -/
def start (stack : Stack) : Context :=
  { stack }

/-- Whether every open branch is taken. -/
def isExecuting (ctx : Context) : Bool :=
  ctx.conditionals.allTaken

def push (ctx : Context) (x : Bytes) : Context :=
  { ctx with stack := x :: ctx.stack }

/-- The elements on both stacks. -/
def depth (ctx : Context) : Nat :=
  ctx.stack.length + ctx.altStack.length

end Context

/-- A question put to the checker, and its answer. -/
structure SignatureQuery where
  signature : Bytes
  key : Bytes
  code : Bytes
  accepted : Bool
  deriving DecidableEq, Repr

/-- How evaluation ended. -/
structure Outcome where
  result : Except ScriptError Unit
  context : Context
  queries : List SignatureQuery := []

namespace Outcome

def ok (ctx : Context) : Outcome where
  result := .ok ()
  context := ctx

def fail (error : ScriptError) (ctx : Context) : Outcome where
  result := .error error
  context := ctx

/-- The outcome with questions that were asked before. -/
def asked (queries : List SignatureQuery) (o : Outcome) : Outcome :=
  { o with queries := queries ++ o.queries }

/-- Goes on in the context that was reached, unless there was a failure. -/
def andThen (o : Outcome) (next : Context → Outcome) : Outcome :=
  match o.result with
  | .ok () => (next o.context).asked o.queries
  | .error _ => o

/-- Replaces the main stack; a failure leaves the context as it is. -/
def ofStack (ctx : Context) : Except ScriptError Stack → Outcome
  | .ok stack => ok { ctx with stack := stack }
  | .error error => fail error ctx

/-- Ends an operation that decides something: it either pushes the answer, or demands that it be
positive and fails otherwise. -/
def conclude (ctx : Context) (verify : Bool) (error : ScriptError) (success : Bool) : Outcome :=
  if verify then if success then ok ctx else fail error ctx
  else ok (ctx.push (Stack.ofBool success))

@[simp] theorem asked_nil (o : Outcome) : o.asked [] = o := rfl

@[simp] theorem asked_asked (p q : List SignatureQuery) (o : Outcome) :
    (o.asked q).asked p = o.asked (p ++ q) := by
  simp [asked]

@[simp] theorem ok_andThen (ctx : Context) (next : Context → Outcome) :
    (ok ctx).andThen next = next ctx := rfl

@[simp] theorem fail_andThen (error : ScriptError) (ctx : Context) (next : Context → Outcome) :
    (fail error ctx).andThen next = fail error ctx := rfl

@[simp] theorem asked_andThen (q : List SignatureQuery) (o : Outcome) (next : Context → Outcome) :
    (o.asked q).andThen next = (o.andThen next).asked q := by
  rcases o with ⟨_ | _, ctx, p⟩ <;> simp [asked, andThen]

/-- Going on is associative. -/
theorem andThen_assoc (o : Outcome) (f g : Context → Outcome) :
    (o.andThen f).andThen g = o.andThen fun ctx => (f ctx).andThen g := by
  rcases o with ⟨_ | _, ctx, q⟩
  · rfl
  · exact asked_andThen q (f ctx) g

end Outcome

namespace Context

/-- Counts `n` operations; the count stays even if it passes the limit. -/
def countOps (ctx : Context) (n : Nat) : Outcome :=
  let counted := { ctx with opCount := ctx.opCount + n }
  if Limits.opsPerScript < counted.opCount then .fail .opCount counted else .ok counted

/-- Fails if both stacks together are too deep. -/
def checkDepth (ctx : Context) : Outcome :=
  if Limits.stackSize < ctx.depth then .fail .stackSize ctx else .ok ctx

/-- Replaces the open conditionals. -/
def setConditionals (ctx : Context) : Except ScriptError Conditionals → Outcome
  | .ok conditionals => .ok { ctx with conditionals := conditionals }
  | .error error => .fail error ctx

end Context
end SpendScript
