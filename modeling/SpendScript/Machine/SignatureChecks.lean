import SpendScript.Machine.Arithmetic
import SpendScript.Machine.Context
import SpendScript.Signature.EncodingRules

/-!
# Signature checks

A single check takes a key and a signature. A multiple check takes, from the top down, a number
of keys, the keys, a number of signatures, the signatures and one spare element; the signatures
have to be good for some of the keys in the order of the keys. Every pair is put to the encoding
rules before the checker is asked. What a signature commits to never includes a push of itself.
-/
set_option autoImplicit false

namespace SpendScript

/-- Puts a pair to the checker. -/
def Environment.ask (env : Environment) (signature key code : Bytes) : SignatureQuery where
  signature := signature
  key := key
  code := code
  accepted := env.checker signature key code

/-- Checks one signature. A pair that breaks an encoding rule stays on the stack. -/
def Context.checkSig (ctx : Context) (env : Environment) (script : Script) (verify : Bool) :
    Outcome :=
  match ctx.stack with
  | key :: signature :: rest =>
    match env.flags.checkEncodings signature key with
    | .ok () =>
      let query := env.ask signature key (script.codeFrom ctx.codeStart [signature])
      (Outcome.conclude { ctx with stack := rest } verify .checkSigVerify query.accepted).asked
        [query]
    | .error error => .fail error ctx
  | _ => .fail .invalidStackOperation ctx

namespace MultiSig

/-- The result of matching signatures with keys, and the questions asked on the way. -/
structure Scan where
  result : Except ScriptError Bool
  queries : List SignatureQuery := []

/-- Matches the signatures with the keys in order: each key is tried once, with the first signature
that has no key yet, and the scan stops when fewer keys than signatures are left. -/
def scan (env : Environment) (code : Bytes) : List Bytes → List Bytes → Scan
  | [], _ => { result := .ok true }
  | _ :: _, [] => { result := .ok false }
  | signature :: signatures, key :: keys =>
    if keys.length < signatures.length then { result := .ok false }
    else
      match env.flags.checkEncodings signature key with
      | .ok () =>
        let query := env.ask signature key code
        let remaining := if query.accepted then signatures else signature :: signatures
        let rest := scan env code remaining keys
        { rest with queries := query :: rest.queries }
      | .error error => { result := .error error }

/-- A number from zero to `limit`; any other number is the given failure. -/
def readCount (flags : Flags) (limit : Nat) (error : ScriptError) (x : Bytes) :
    Except ScriptError Nat :=
  match flags.readNumber x with
  | .ok n =>
    match n.value.toNat? with
    | some count => if count ≤ limit then .ok count else .error error
    | none => .error error
  | .error error => .error error

/-- The number of keys, on top of the stack. -/
def readKeyCount (flags : Flags) : Stack → Except ScriptError Nat
  | x :: _ => readCount flags Limits.keysPerMultiSig .pubkeyCount x
  | [] => .error .invalidStackOperation

/-- What a check takes from the stack, keys and signatures from the top down. -/
structure Arguments where
  keys : List Bytes
  signatures : List Bytes
  spare : Bytes
  rest : Stack

/-- The arguments of a check with the given number of keys. -/
def readArguments (flags : Flags) (keyCount : Nat) (stack : Stack) :
    Except ScriptError Arguments :=
  match stack.drop (keyCount + 1) with
  | [] => .error .invalidStackOperation
  | x :: below =>
    match readCount flags keyCount .sigCount x with
    | .ok count =>
      match below.drop count with
      | [] => .error .invalidStackOperation
      | spare :: rest => .ok
        { keys := (stack.drop 1).take keyCount
          signatures := below.take count
          spare := spare
          rest := rest }
    | .error error => .error error

/-- Takes the arguments off the stack once the scan has an answer. A spare element that has to be
empty and is not stays on top. -/
def finish (env : Environment) (verify : Bool) (ctx : Context) (args : Arguments)
    (success : Bool) : Outcome :=
  if env.flags.nullDummy && !args.spare.isEmpty then
    .fail .sigNullDummy { ctx with stack := args.spare :: args.rest }
  else .conclude { ctx with stack := args.rest } verify .checkMultiSigVerify success

/-- Scans and finishes; a pair that breaks an encoding rule leaves the stack as it was. -/
def judge (env : Environment) (script : Script) (verify : Bool) (ctx : Context)
    (args : Arguments) : Outcome :=
  let s := scan env (script.codeFrom ctx.codeStart args.signatures) args.signatures args.keys
  match s.result with
  | .ok success => (finish env verify ctx args success).asked s.queries
  | .error error => (Outcome.fail error ctx).asked s.queries

end MultiSig

/-- Checks several signatures. Each key counts as an operation. -/
def Context.checkMultiSig (ctx : Context) (env : Environment) (script : Script)
    (verify : Bool) : Outcome :=
  match MultiSig.readKeyCount env.flags ctx.stack with
  | .ok keyCount =>
    (ctx.countOps keyCount).andThen fun ctx =>
      match MultiSig.readArguments env.flags keyCount ctx.stack with
      | .ok args => MultiSig.judge env script verify ctx args
      | .error error => .fail error ctx
  | .error error => .fail error ctx

end SpendScript
