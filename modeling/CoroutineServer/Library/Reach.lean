/-!
# Reachability under a condition on the steps

A labelled transition system given by a partial step function. A run takes only the steps that meet a
condition on the label and the state before the step; `fun _ _ => True` gives every run.
-/

namespace Reach

variable {State Label : Type}

/-- The states reached from an initial one by steps that all meet `ok`. -/
inductive Reaches (step : Label → State → Option State) (Initial : State → Prop)
    (ok : Label → State → Prop) : State → Prop where
  | initial {state : State} (h : Initial state) : Reaches step Initial ok state
  | next {state state' : State} {label : Label} (h : Reaches step Initial ok state)
      (hok : ok label state) (hstep : step label state = some state') :
      Reaches step Initial ok state'

variable {step : Label → State → Option State} {Initial : State → Prop}
  {ok ok' : Label → State → Prop}

/-- **Invariant rule.** What holds initially and is kept by each step, from states that satisfy what is
already known of them, holds of every reached state. -/
theorem Reaches.invariant {Inv : State → Prop} {state : State}
    (hreach : Reaches step Initial ok state) (Known : State → Prop)
    (hknown : ∀ state, Reaches step Initial ok state → Known state)
    (hinitial : ∀ state, Initial state → Inv state)
    (hstep : ∀ state state' label, Known state → Inv state → ok label state →
      step label state = some state' → Inv state') : Inv state := by
  induction hreach with
  | initial h => exact hinitial _ h
  | next hprior hok hnext ih => exact hstep _ _ _ (hknown _ hprior) ih hok hnext

theorem Reaches.mono {Initial' : State → Prop} {state : State}
    (hreach : Reaches step Initial ok state) (hstart : ∀ state, Initial state → Initial' state)
    (h : ∀ label state, ok label state → ok' label state) : Reaches step Initial' ok' state := by
  induction hreach with
  | initial hinitial => exact .initial (hstart _ hinitial)
  | next _ hok hnext ih => exact .next ih (h _ _ hok) hnext

theorem Reaches.after {start middle state : State} {label : Label} (hok : ok label start)
    (hstep : step label start = some middle)
    (hreach : Reaches step (fun other => other = middle) ok state) :
    Reaches step (fun other => other = start) ok state := by
  induction hreach with
  | initial h =>
    rw [h]
    exact .next (.initial rfl) hok hstep
  | next _ hok' hstep' ih => exact .next ih hok' hstep'

theorem Reaches.trans {start middle state : State}
    (hfirst : Reaches step (fun other => other = start) ok middle)
    (hsecond : Reaches step (fun other => other = middle) ok state) :
    Reaches step (fun other => other = start) ok state := by
  induction hsecond with
  | initial h =>
    rw [h]
    exact hfirst
  | next _ hok hstep ih => exact .next ih hok hstep

theorem Reaches.follow {start state : State} (hfirst : Reaches step Initial ok start)
    (hsecond : Reaches step (fun other => other = start) ok state) : Reaches step Initial ok state := by
  induction hsecond with
  | initial h =>
    rw [h]
    exact hfirst
  | next _ hok hstep ih => exact .next ih hok hstep

/-- What each step keeps, and what can be chained, holds between the two ends of a run. -/
theorem Reaches.chain {R : State → State → Prop} {start state : State}
    (hreach : Reaches step (fun other => other = start) ok state) (hrefl : ∀ state, R state state)
    (htrans : ∀ first second third, R first second → R second third → R first third)
    (hstep : ∀ label state state', ok label state → step label state = some state' → R state state') :
    R start state := by
  induction hreach with
  | initial h =>
    rw [h]
    exact hrefl start
  | next _ hok hnext ih => exact htrans _ _ _ ih (hstep _ _ _ hok hnext)

/-- A run with the states it has left behind, newest first. -/
inductive Run (step : Label → State → Option State) (Initial : State → Prop)
    (ok : Label → State → Prop) : List State → State → Prop where
  | initial {state : State} (h : Initial state) : Run step Initial ok [] state
  | next {visited : List State} {state state' : State} {label : Label}
      (h : Run step Initial ok visited state) (hok : ok label state)
      (hstep : step label state = some state') : Run step Initial ok (state :: visited) state'

theorem Run.reaches {visited : List State} {state : State}
    (hrun : Run step Initial ok visited state) : Reaches step Initial ok state := by
  induction hrun with
  | initial h => exact .initial h
  | next _ hok hstep ih => exact .next ih hok hstep

/-- A run with its labels, newest first. -/
inductive Trail (step : Label → State → Option State) (start : State) : List Label → State → Prop where
  | nil : Trail step start [] start
  | cons {labels : List Label} {state state' : State} {label : Label}
      (h : Trail step start labels state) (hstep : step label state = some state') :
      Trail step start (label :: labels) state'

theorem Trail.reaches {labels : List Label} {start state : State} (h : Trail step start labels state) :
    Reaches step (fun other => other = start) (fun _ _ => True) state := by
  induction h with
  | nil => exact .initial rfl
  | cons _ hstep ih => exact .next ih trivial hstep

/-- **Charging rule.** When a step that is counted lowers the potential, and only a step that is paid for
raises it, by the credit at most, then the steps that are counted are bounded by what has been paid. -/
theorem Trail.charged {labels : List Label} {start state : State} (h : Trail step start labels state)
    (counted paid : Label → Bool) (credit : Nat) (potential : State → Nat)
    (hstep : ∀ label state state', Reaches step (fun other => other = start) (fun _ _ => True) state →
      step label state = some state' →
        potential state' + (counted label).toNat ≤ potential state + credit * (paid label).toNat) :
    potential state + labels.countP counted ≤ potential start + credit * labels.countP paid := by
  induction h with
  | nil => exact Nat.le_refl _
  | @cons labels _ _ label h hnext ih =>
    have hcharge := hstep _ _ _ h.reaches hnext
    have hcounted : (label :: labels).countP counted = labels.countP counted + (counted label).toNat := by
      rw [List.countP_cons]
      cases counted label <;> rfl
    have hpaid : (label :: labels).countP paid = labels.countP paid + (paid label).toNat := by
      rw [List.countP_cons]
      cases paid label <;> rfl
    rw [hcounted, hpaid, Nat.mul_add]
    omega

/-- The state a list of labels leads to; a label that is not enabled is passed over. -/
def after (step : Label → State → Option State) : List Label → State → State
  | [], state => state
  | label :: labels, state => after step labels ((step label state).getD state)

/-- Each label of a list is enabled and passes a test in its turn. -/
def meets (step : Label → State → Option State) (test : Label → State → Bool) :
    List Label → State → Bool
  | [], _ => true
  | label :: labels, state => test label state && (step label state).isSome &&
      meets step test labels ((step label state).getD state)

theorem Trail.of_meets {labels earlier : List Label} {start state : State}
    (htrail : Trail step start earlier state)
    (hmeets : meets step (fun _ _ => true) labels state = true) :
    Trail step start (labels.reverse ++ earlier) (after step labels state) := by
  induction labels generalizing earlier state with
  | nil => exact htrail
  | cons label labels ih =>
    rw [meets, Bool.and_eq_true, Bool.and_eq_true] at hmeets
    obtain ⟨⟨-, henabled⟩, hrest⟩ := hmeets
    obtain ⟨middle, hmiddle⟩ := Option.isSome_iff_exists.mp henabled
    rw [hmiddle, Option.getD_some] at hrest
    rw [after, hmiddle, Option.getD_some, List.reverse_cons, List.append_assoc]
    exact ih (.cons htrail hmiddle) hrest

/-- A list of labels that can be computed through is a run. -/
theorem Run.of_meets {test : Label → State → Bool} {labels : List Label}
    (hok : ∀ label ∈ labels, ∀ state, Reaches step Initial ok state → test label state = true →
      ok label state) {visited : List State} {state : State}
    (hrun : Run step Initial ok visited state) (hmeets : meets step test labels state = true) :
    ∃ visited', Run step Initial ok visited' (after step labels state) := by
  induction labels generalizing visited state with
  | nil => exact ⟨visited, hrun⟩
  | cons label labels ih =>
    rw [meets, Bool.and_eq_true, Bool.and_eq_true] at hmeets
    obtain ⟨⟨htest, henabled⟩, hrest⟩ := hmeets
    obtain ⟨middle, hmiddle⟩ := Option.isSome_iff_exists.mp henabled
    rw [hmiddle, Option.getD_some] at hrest
    rw [after, hmiddle, Option.getD_some]
    exact ih (fun other hother => hok other (List.mem_cons_of_mem _ hother))
      (.next hrun (hok label List.mem_cons_self state hrun.reaches htest) hmiddle) hrest

theorem Reaches.of_meets {test : Label → State → Bool} {labels : List Label} {state : State}
    (hstate : Initial state)
    (hok : ∀ label ∈ labels, ∀ state, Reaches step Initial ok state → test label state = true →
      ok label state)
    (hmeets : meets step test labels state = true) :
    Reaches step Initial ok (Reach.after step labels state) := by
  obtain ⟨visited, hrun⟩ := Run.of_meets hok (.initial hstate) hmeets
  exact hrun.reaches

/-- Without a condition, labels that are enabled in their turn are a run. -/
theorem Reaches.of_enabled {labels : List Label} {state : State} (hstate : Initial state)
    (hmeets : meets step (fun _ _ => true) labels state = true) :
    Reaches step Initial (fun _ _ => True) (Reach.after step labels state) :=
  .of_meets hstate (fun _ _ _ _ _ => trivial) hmeets

end Reach
