import Mathlib.Data.List.Basic

/-!
# Programs that perform operations

A program returns a value, throws, or performs an operation and goes on with its result. The calls it
has made so far, newest first, are its trace. An outline says what must have been called before each
operation and what the trace looks like at the end, whatever admissible results the operations return,
so a program is checked against its outline once and every later argument is about traces.
-/

namespace Program

inductive Prog (Op : Type) (Ret : Op → Type) (ε α : Type) where
  | ret (value : α)
  | throw (exception : ε)
  | perform (op : Op) (next : Ret op → Prog Op Ret ε α)

variable {Op : Type} {Ret : Op → Type} {ε α β : Type}

namespace Prog

def bind : Prog Op Ret ε α → (α → Prog Op Ret ε β) → Prog Op Ret ε β
  | .ret value, rest => rest value
  | .throw exception, _ => .throw exception
  | .perform op next, rest => .perform op fun result => (next result).bind rest

/-- A handler takes over at the first exception, with the calls made so far standing. -/
def tryCatch : Prog Op Ret ε α → (ε → Prog Op Ret ε α) → Prog Op Ret ε α
  | .ret value, _ => .ret value
  | .throw exception, handler => handler exception
  | .perform op next, handler => .perform op fun result => (next result).tryCatch handler

instance : Monad (Prog Op Ret ε) where
  pure := .ret
  bind := .bind

def call (op : Op) : Prog Op Ret ε (Ret op) := .perform op .ret

def ofExcept : Except ε α → Prog Op Ret ε α
  | .ok value => .ret value
  | .error exception => .throw exception

end Prog

/-- The state a program leaves when it runs alone; the number of operations so far chooses what the
environment decides in the next one. -/
def Prog.exec {State : Type} (act : Nat → (op : Op) → State → Ret op × State) :
    Prog Op Ret ε α → Nat → State → State
  | .ret _, _, state => state
  | .throw _, _, state => state
  | .perform op next, n, state =>
      let (result, state') := act n op state
      (next result).exec act (n + 1) state'

/-- An operation together with the result it returned. -/
abbrev Call (Op : Type) (Ret : Op → Type) : Type := (op : Op) × Ret op

abbrev Trace (Op : Type) (Ret : Op → Type) : Type := List (Call Op Ret)

/-- The results that can come back, and what a trace must show before an operation. -/
structure Rules (Op : Type) (Ret : Op → Type) where
  Admits : (op : Op) → Ret op → Prop
  Warrants : Trace Op Ret → Op → Prop

/-- **Outline of a program.** From a trace on, every operation is warranted by the calls before it, and
the trace at a normal end and at an exception is as stated. -/
def Outline (rules : Rules Op Ret) (post : Trace Op Ret → α → Prop)
    (raised : Trace Op Ret → ε → Prop) : Prog Op Ret ε α → Trace Op Ret → Prop
  | .ret value, trace => post trace value
  | .throw exception, trace => raised trace exception
  | .perform op next, trace => rules.Warrants trace op ∧
      ∀ result, rules.Admits op result → Outline rules post raised (next result) (⟨op, result⟩ :: trace)

/-- The states a trace leads through, from where it starts to where it ends. -/
inductive Performed {State : Type} (Acts : (op : Op) → State → Ret op → State → Prop)
    (start : State) : Trace Op Ret → State → Prop where
  | nil : Performed Acts start [] start
  | cons {op : Op} {result : Ret op} {trace : Trace Op Ret} {state state' : State}
      (h : Performed Acts start trace state) (hacts : Acts op state result state') :
      Performed Acts start (⟨op, result⟩ :: trace) state'

namespace Performed

variable {State : Type} {Acts : (op : Op) → State → Ret op → State → Prop} {start state : State}
  {trace : Trace Op Ret}

theorem split {later earlier : Trace Op Ret} (h : Performed Acts start (later ++ earlier) state) :
    ∃ middle, Performed Acts start earlier middle ∧ Performed Acts middle later state := by
  induction later generalizing state with
  | nil => exact ⟨state, h, .nil⟩
  | cons call later ih =>
    cases h with
    | cons h hacts =>
      obtain ⟨middle, hearlier, hlater⟩ := ih h
      exact ⟨middle, hearlier, .cons hlater hacts⟩

/-- What each call of a trace keeps, and what can be chained, holds from its start to its end. -/
theorem chain {R : State → State → Prop} (h : Performed Acts start trace state)
    (hrefl : ∀ state, R state state)
    (htrans : ∀ first second third, R first second → R second third → R first third)
    (hstep : ∀ call ∈ trace, ∀ state state', Acts call.1 state call.2 state' → R state state') :
    R start state := by
  induction h with
  | nil => exact hrefl _
  | cons _ hacts ih =>
    exact htrans _ _ _ (ih fun call hcall => hstep call (List.mem_cons_of_mem _ hcall))
      (hstep _ List.mem_cons_self _ _ hacts)

end Performed

namespace Outline

variable {rules : Rules Op Ret} {raised raised' : Trace Op Ret → ε → Prop}
  {post post' : Trace Op Ret → α → Prop} {prog : Prog Op Ret ε α} {trace : Trace Op Ret}

theorem mono (h : Outline rules post raised prog trace)
    (hpost : ∀ trace value, post trace value → post' trace value)
    (hraised : ∀ trace exception, raised trace exception → raised' trace exception) :
    Outline rules post' raised' prog trace := by
  induction prog generalizing trace with
  | ret value => exact hpost _ _ h
  | throw exception => exact hraised _ _ h
  | perform op next ih => exact ⟨h.1, fun result hresult => ih result (h.2 result hresult)⟩

/-- Sequencing: the rest of the program is outlined from the traces the first part ends with. -/
theorem bind {rest : α → Prog Op Ret ε β} {postRest : Trace Op Ret → β → Prop}
    (h : Outline rules (fun trace value => Outline rules postRest raised (rest value) trace) raised
      prog trace) :
    Outline rules postRest raised (prog >>= rest) trace := by
  induction prog generalizing trace with
  | ret value => exact h
  | throw exception => exact h
  | perform op next ih => exact ⟨h.1, fun result hresult => ih result (h.2 result hresult)⟩

theorem tryCatch {handler : ε → Prog Op Ret ε α}
    (h : Outline rules post
      (fun trace exception => Outline rules post raised (handler exception) trace) prog trace) :
    Outline rules post raised (prog.tryCatch handler) trace := by
  induction prog generalizing trace with
  | ret value => exact h
  | throw exception => exact h
  | perform op next ih => exact ⟨h.1, fun result hresult => ih result (h.2 result hresult)⟩

theorem call {op : Op} {post : Trace Op Ret → Ret op → Prop} (hwarrant : rules.Warrants trace op)
    (hpost : ∀ result, rules.Admits op result → post (⟨op, result⟩ :: trace) result) :
    Outline rules post raised (Prog.call op : Prog Op Ret ε (Ret op)) trace :=
  ⟨hwarrant, hpost⟩

theorem call_bind {op : Op} {rest : Ret op → Prog Op Ret ε β}
    {postRest : Trace Op Ret → β → Prop} (hwarrant : rules.Warrants trace op)
    (hrest : ∀ result, rules.Admits op result →
      Outline rules postRest raised (rest result) (⟨op, result⟩ :: trace)) :
    Outline rules postRest raised (Prog.call op >>= rest) trace :=
  ⟨hwarrant, hrest⟩

theorem ofExcept_bind {computation : Except ε α} {rest : α → Prog Op Ret ε β}
    {postRest : Trace Op Ret → β → Prop}
    (hok : ∀ value, computation = .ok value → Outline rules postRest raised (rest value) trace)
    (herror : ∀ exception, computation = .error exception → raised trace exception) :
    Outline rules postRest raised (Prog.ofExcept computation >>= rest) trace := by
  cases computation with
  | ok value => exact hok value rfl
  | error exception => exact herror exception rfl

/-- One operation of a running program: it was warranted, and the rest is outlined. -/
theorem step {op : Op} {next : Ret op → Prog Op Ret ε α} {result : Ret op}
    (h : Outline rules post raised (.perform op next) trace) (hadmits : rules.Admits op result) :
    rules.Warrants trace op ∧ Outline rules post raised (next result) (⟨op, result⟩ :: trace) :=
  ⟨h.1, h.2 result hadmits⟩

/-- A program that runs alone ends with a trace of its outline, which leads to the state it leaves. -/
theorem exec {State : Type} (Acts : (op : Op) → State → Ret op → State → Prop)
    (act : Nat → (op : Op) → State → Ret op × State) (Inv : State → Prop) {start state : State}
    (hact : ∀ n op state, Acts op state (act n op state).1 (act n op state).2)
    (hadmits : ∀ op state result state', Inv state → Acts op state result state' →
      rules.Admits op result)
    (hinv : ∀ op state result state' trace, Inv state → rules.Warrants trace op →
      Acts op state result state' → Inv state')
    (h : Outline rules post raised prog trace) (hperformed : Performed Acts start trace state)
    (hstate : Inv state) (n : Nat) :
    ∃ trace', Performed Acts start trace' (prog.exec act n state) ∧
      ((∃ value, post trace' value) ∨ ∃ exception, raised trace' exception) := by
  induction prog generalizing trace state n with
  | ret value => exact ⟨trace, hperformed, .inl ⟨value, h⟩⟩
  | throw exception => exact ⟨trace, hperformed, .inr ⟨exception, h⟩⟩
  | perform op next ih =>
    have hacts := hact n op state
    obtain ⟨hwarrant, hnext⟩ := h.step (hadmits op state _ _ hstate hacts)
    exact ih _ hnext (.cons hperformed hacts) (hinv op state _ _ trace hstate hwarrant hacts) (n + 1)

end Outline

end Program
