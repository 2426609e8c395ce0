import Mathlib.Tactic.Common

/-!
# Messages of the debug adapter protocol

The records of `adapterprotocol.h` that the session and the controller build, with the fields
that they set or read. `V` is the type of runtime values, which stand for decoded JSON.
-/

namespace LuaToolkit.Dap

/-! ## Protocol messages -/

structure RequestMessage (V : Type*) where
  seq : UInt32
  command : String
  arguments : V

structure StoppedEventBody where
  reason : String
  description : Option String := none
  threadId : Option UInt32 := none
  allThreadsStopped : Option Bool := none
  hitBreakpointIds : Option (List UInt32) := none
  deriving DecidableEq, Repr

/-- `GenericEventMessage<StoppedEventBody>`. -/
structure EventMessage where
  seq : UInt32
  eventType : String
  body : StoppedEventBody
  deriving DecidableEq, Repr

/-- `GenericResponseMessage<>`: the body is a pointer, null unless a handler sets it. -/
structure ResponseMessage (V : Type*) where
  seq : UInt32
  request_seq : UInt32
  success : Bool := true
  command : String
  message : Option String := none
  body : Option V := none

namespace ResponseMessage

variable {V : Type*}

/-- The constructor from the request that is answered. -/
def create (messageSeq : UInt32) (request : RequestMessage V) : ResponseMessage V where
  seq := messageSeq
  request_seq := request.seq
  command := request.command

def setError (errorMessage : String) (r : ResponseMessage V) : ResponseMessage V :=
  { r with
    success := false
    message := if errorMessage.isEmpty then r.message else some errorMessage }

end ResponseMessage

/-- What goes out on the message stream. -/
inductive Message (V : Type*) where
  | event (message : EventMessage)
  | response (message : ResponseMessage V)

/-! ## Breakpoints and frames

Paths and names hold no zero byte: Lua gives them as C strings. Frame ids, which count the levels
of a call stack, are natural numbers.
-/

structure Source where
  path : String
  deriving DecidableEq, Repr

structure SourceBreakpoint where
  line : UInt32
  deriving DecidableEq, Repr

structure FunctionBreakpoint where
  name : String
  deriving DecidableEq, Repr

structure Breakpoint where
  id : Option UInt32
  verified : Bool
  line : Option UInt32 := none
  deriving DecidableEq, Repr

structure SetBreakpointsArguments where
  source : Source
  breakpoints : List SourceBreakpoint
  deriving DecidableEq, Repr

structure SetFunctionBreakpointsArguments where
  breakpoints : List FunctionBreakpoint
  deriving DecidableEq, Repr

structure StackFrame where
  id : Nat
  name : String
  source : Option Source := none
  line : UInt32 := 0
  deriving DecidableEq, Repr

/-- The branch of `operator ==` that the platform picks: `Strings::icaseEqual` on Windows and `==`
elsewhere, both of them equivalences. -/
structure PathEquality where
  eq : String → String → Bool
  equivalence : Equivalence fun a b => eq a b = true

/-- `operator == (const Source&, std::string_view)`. -/
def Source.eqPath (P : PathEquality) (left : Source) (path : String) : Bool :=
  if left.path.isEmpty && path.isEmpty then true
  else if left.path.isEmpty || path.isEmpty then false
  else P.eq left.path path

/-- `operator == (const Source&, const Source&)`. -/
def Source.eq (P : PathEquality) (left right : Source) : Bool := left.eqPath P right.path

theorem Source.eqPath_iff (P : PathEquality) (left : Source) (path : String) :
    left.eqPath P path = true ↔
      (left.path = "" ∧ path = "") ∨ (left.path ≠ "" ∧ path ≠ "" ∧ P.eq left.path path = true) := by
  unfold eqPath
  by_cases hl : left.path = "" <;> by_cases hp : path = "" <;> simp [hl, hp]

/-- Equality of sources is an equivalence. -/
theorem Source.eq_equivalence (P : PathEquality) :
    Equivalence fun left right : Source => left.eq P right = true where
  refl s := by
    by_cases h : s.path = ""
    · exact (eqPath_iff P s s.path).2 (.inl ⟨h, h⟩)
    · exact (eqPath_iff P s s.path).2 (.inr ⟨h, h, P.equivalence.refl _⟩)
  symm := by
    intro s t h
    rcases (eqPath_iff P s t.path).1 h with ⟨hs, ht⟩ | ⟨hs, ht, heq⟩
    · exact (eqPath_iff P t s.path).2 (.inl ⟨ht, hs⟩)
    · exact (eqPath_iff P t s.path).2 (.inr ⟨ht, hs, P.equivalence.symm heq⟩)
  trans := by
    intro s t u h h'
    rcases (eqPath_iff P s t.path).1 h with ⟨hs, ht⟩ | ⟨hs, ht, heq⟩ <;>
      rcases (eqPath_iff P t u.path).1 h' with ⟨ht', hu⟩ | ⟨ht', hu, heq'⟩
    · exact (eqPath_iff P s u.path).2 (.inl ⟨hs, hu⟩)
    · exact absurd ht ht'
    · exact absurd ht' ht
    · exact (eqPath_iff P s u.path).2 (.inr ⟨hs, hu, P.equivalence.trans heq heq'⟩)

end LuaToolkit.Dap
