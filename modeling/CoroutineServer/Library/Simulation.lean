import CoroutineServer.Library.Reach

/-!
# Simulation

A relation between the states of two transition systems, the first of which may cut its runs into other
steps than the second: a step of the first is answered by any number of steps of the second, none among
them. What the relation carries over then holds between the reached states. When something is seen of the
steps, the answer has to show the same, and the runs of the first show nothing that those of the second do
not.
-/

namespace Reach

variable {State Label State' Label' : Type} {step : Label → State → Option State}
  {Initial : State → Prop} {ok : Label → State → Prop} {step' : Label' → State' → Option State'}
  {Initial' : State' → Prop} {ok' : Label' → State' → Prop}

/-- The second state is left by steps that lead to a state related to the first. -/
def Answered (step' : Label' → State' → Option State') (ok' : Label' → State' → Prop)
    (Rel : State → State' → Prop) (state : State) (other : State') : Prop :=
  ∃ other', Reaches step' (fun start => start = other) ok' other' ∧ Rel state other'

namespace Answered

variable {Rel : State → State' → Prop} {state : State} {other other' : State'}

/-- No step is needed. -/
theorem stay (h : Rel state other) : Answered step' ok' Rel state other := ⟨other, .initial rfl, h⟩

theorem after {label : Label'} (hok : ok' label other) (hstep : step' label other = some other')
    (h : Answered step' ok' Rel state other') : Answered step' ok' Rel state other := by
  obtain ⟨last, hreach, hrel⟩ := h
  exact ⟨last, hreach.after hok hstep, hrel⟩

theorem trans (hreach : Reaches step' (fun start => start = other) ok' other')
    (h : Answered step' ok' Rel state other') : Answered step' ok' Rel state other := by
  obtain ⟨last, hlast, hrel⟩ := h
  exact ⟨last, hreach.trans hlast, hrel⟩

end Answered

/-- **Simulation rule.** When the initial states are related to initial ones and each step can be answered,
from reached states, every reached state is related to a reached one. -/
theorem Reaches.simulated (Rel : State → State' → Prop) {state : State}
    (hreach : Reaches step Initial ok state)
    (hinitial : ∀ state, Initial state → ∃ other, Initial' other ∧ Rel state other)
    (hstep : ∀ label before state other, Reaches step Initial ok before →
      Reaches step' Initial' ok' other → Rel before other → ok label before →
      step label before = some state → Answered step' ok' Rel state other) :
    ∃ other, Reaches step' Initial' ok' other ∧ Rel state other := by
  induction hreach with
  | initial h =>
    obtain ⟨other, hother, hrel⟩ := hinitial _ h
    exact ⟨other, .initial hother, hrel⟩
  | next hprior hok hnext ih =>
    obtain ⟨other, hother, hrel⟩ := ih
    obtain ⟨other', hreach', hrel'⟩ := hstep _ _ _ _ hprior hother hrel hok hnext
    exact ⟨other', hother.follow hreach', hrel'⟩

/-! ### What is seen of a run -/

section Seen

variable {Event : Type} {seen : Label → State → State → List Event}
  {seen' : Label' → State' → State' → List Event} {events later : List Event}

/-- The runs from a state, with what is seen of their steps, oldest first. -/
inductive Traced (step : Label → State → Option State) (seen : Label → State → State → List Event)
    (ok : Label → State → Prop) (start : State) : List Event → State → Prop where
  | nil : Traced step seen ok start [] start
  | next {events : List Event} {state state' : State} {label : Label}
      (h : Traced step seen ok start events state) (hok : ok label state)
      (hstep : step label state = some state') :
      Traced step seen ok start (events ++ seen label state state') state'

namespace Traced

variable {start middle state : State}

theorem single {label : Label} (hok : ok label start) (hstep : step label start = some state) :
    Traced step seen ok start (seen label start state) state :=
  .next .nil hok hstep

theorem trans (hfirst : Traced step seen ok start events middle)
    (hsecond : Traced step seen ok middle later state) :
    Traced step seen ok start (events ++ later) state := by
  induction hsecond with
  | nil =>
    rw [List.append_nil]
    exact hfirst
  | next _ hok hstep ih =>
    rw [← List.append_assoc]
    exact .next ih hok hstep

/-- Steps of which nothing is seen. -/
theorem of_silent (hreach : Reaches step (fun other => other = start) ok state)
    (hsilent : ∀ label state state', ok label state → step label state = some state' →
      seen label state state' = []) : Traced step seen ok start [] state := by
  induction hreach with
  | initial h =>
    rw [h]
    exact .nil
  | next _ hok hstep ih =>
    have hnext := Traced.next ih hok hstep
    rwa [hsilent _ _ _ hok hstep] at hnext

theorem mono (h : Traced step seen ok start events state) {ok' : Label → State → Prop}
    (himp : ∀ label state, ok label state → ok' label state) :
    Traced step seen ok' start events state := by
  induction h with
  | nil => exact .nil
  | next _ hok hstep ih => exact .next ih (himp _ _ hok) hstep

end Traced

/-- The second state is left by steps that show certain events, and lead to a state related to the first. -/
def Echoed (step' : Label' → State' → Option State') (seen' : Label' → State' → State' → List Event)
    (ok' : Label' → State' → Prop) (Rel : State → State' → Prop) (events : List Event) (state : State)
    (other : State') : Prop :=
  ∃ other', Traced step' seen' ok' other events other' ∧ Rel state other'

namespace Echoed

variable {Rel : State → State' → Prop} {state : State} {other other' : State'}

theorem stay (h : Rel state other) : Echoed step' seen' ok' Rel [] state other := ⟨other, .nil, h⟩

theorem trans (htraced : Traced step' seen' ok' other events other')
    (h : Echoed step' seen' ok' Rel later state other') :
    Echoed step' seen' ok' Rel (events ++ later) state other := by
  obtain ⟨last, hlast, hrel⟩ := h
  exact ⟨last, htraced.trans hlast, hrel⟩

end Echoed

/-- **Trace inclusion.** When each step can be answered by steps that show the same, every run is followed
by one that shows the same. -/
theorem Traced.simulated (Rel : State → State' → Prop) {start state : State} {start' : State'}
    (h : Traced step seen ok start events state) (hstart : Rel start start')
    (hstep : ∀ label before after other, Rel before other → ok label before →
      step label before = some after →
        Echoed step' seen' ok' Rel (seen label before after) after other) :
    ∃ other, Traced step' seen' ok' start' events other ∧ Rel state other := by
  induction h with
  | nil => exact ⟨start', .nil, hstart⟩
  | next _ hok hnext ih =>
    obtain ⟨other, hother, hrel⟩ := ih
    obtain ⟨other', htraced, hrel'⟩ := hstep _ _ _ _ hrel hok hnext
    exact ⟨other', hother.trans htraced, hrel'⟩

/-- What is seen along a list of labels. -/
def seenAlong (step : Label → State → Option State) (seen : Label → State → State → List Event) :
    List Label → State → List Event
  | [], _ => []
  | label :: labels, state =>
      seen label state ((step label state).getD state) ++
        seenAlong step seen labels ((step label state).getD state)

theorem Traced.of_meets {test : Label → State → Bool} {labels : List Label} {start : State}
    (hok : ∀ label state, test label state = true → ok label state)
    (hmeets : meets step test labels start = true) :
    Traced step seen ok start (seenAlong step seen labels start) (after step labels start) := by
  induction labels generalizing start with
  | nil => exact .nil
  | cons label labels ih =>
    rw [meets, Bool.and_eq_true, Bool.and_eq_true] at hmeets
    obtain ⟨⟨htest, henabled⟩, hrest⟩ := hmeets
    obtain ⟨middle, hmiddle⟩ := Option.isSome_iff_exists.mp henabled
    rw [hmiddle, Option.getD_some] at hrest
    rw [seenAlong, after, hmiddle, Option.getD_some]
    exact (Traced.single (hok label start htest) hmiddle).trans (ih hrest)

end Seen

end Reach
