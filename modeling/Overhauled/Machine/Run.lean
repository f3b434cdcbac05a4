/-
  Overhauled.Machine.Run — runs of a deterministic machine: a total `step` on a state
  and an event, and the state a list of events leads to. An interleaving of several
  actors is one such list; what an event cannot do in a state, `step` leaves undone.

  `exec_induct` is the invariant rule, with the events so far at hand, so that an
  assumption about every moment of the run can be used at each step. `exec_until` is
  the barrier rule: what every step keeps, except those of one kind, is lost only at a
  step of that kind. `EachStep` is a condition on every step of a run, given the state
  before it, `exec_each` the invariant rule for runs that meet one, and
  `forall_prefix_iff` the rule for a condition that is exactly what a property needs.

  A step may also put something out. `trace` is all a run puts out, and `forall_trace`
  turns a property of all of it into one of every step. `exec_simulates` compares two
  machines over the same events: related states that put out the same stay related.
  `exec_projects` compares a finer machine with a coarser one, which takes any number of
  steps of its own for one of the other's.
-/

import Mathlib

namespace Overhauled.Machine

variable {σ ε β : Type} {step : σ → ε → σ} {s : σ} {es : List ε}

def exec (step : σ → ε → σ) (s : σ) (es : List ε) : σ := es.foldl step s

@[simp] theorem exec_nil : exec step s [] = s := rfl

@[simp] theorem exec_cons (e : ε) : exec step s (e :: es) = exec step (step s e) es := rfl

theorem exec_append (es' : List ε) : exec step s (es ++ es') = exec step (exec step s es) es' := List.foldl_append

theorem exec_concat (e : ε) : exec step s (es ++ [e]) = step (exec step s es) e := exec_append [e]

theorem exec_induct {I : σ → Prop} (h0 : I s)
    (hstep : ∀ pre e, pre ++ [e] <+: es → I (exec step s pre) → I (step (exec step s pre) e)) : I (exec step s es) := by
  induction es using List.reverseRecOn with
  | nil => exact h0
  | append_singleton es e ih =>
    rw [exec_concat]
    refine hstep es e (List.prefix_refl _) (ih fun pre e' hpre => ?_)
    exact hstep pre e' (hpre.trans (List.prefix_append _ _))

theorem exec_until {P : σ → Prop} {A : σ → ε → Prop} (hkeep : ∀ s e, P s → ¬ A s e → P (step s e)) (hs : P s)
    (hend : ¬ P (exec step s es)) : ∃ a e b, es = a ++ e :: b ∧ P (exec step s a) ∧ A (exec step s a) e := by
  induction es generalizing s with
  | nil => exact absurd hs hend
  | cons e es ih =>
    by_cases ha : A s e
    · exact ⟨[], e, es, rfl, hs, ha⟩
    · obtain ⟨a, e', b, rfl, hp, ha'⟩ := ih (hkeep s e hs ha) hend
      exact ⟨e :: a, e', b, rfl, hp, ha'⟩

/-- Every step of the run meets `C`. -/
def EachStep (step : σ → ε → σ) (C : σ → ε → Prop) : σ → List ε → Prop
  | _, [] => True
  | s, e :: es => C s e ∧ EachStep step C (step s e) es

instance EachStep.decidable (step : σ → ε → σ) (C : σ → ε → Prop) [∀ s e, Decidable (C s e)] (s : σ) (es : List ε) :
    Decidable (EachStep step C s es) :=
  match es with
  | [] => inferInstanceAs (Decidable True)
  | e :: es =>
    have := EachStep.decidable step C (step s e) es
    inferInstanceAs (Decidable (_ ∧ _))

theorem eachStep_append {C : σ → ε → Prop} {es' : List ε} :
    EachStep step C s (es ++ es') ↔ EachStep step C s es ∧ EachStep step C (exec step s es) es' := by
  induction es generalizing s with
  | nil => rw [List.nil_append, EachStep, exec_nil, true_and]
  | cons e es ih => rw [List.cons_append, EachStep, EachStep, ih, exec_cons, and_assoc]

theorem exec_each {C : σ → ε → Prop} {I : σ → Prop} (hrun : EachStep step C s es) (h0 : I s)
    (hstep : ∀ s e, I s → C s e → I (step s e)) : I (exec step s es) := by
  induction es generalizing s with
  | nil => exact h0
  | cons e es ih => exact ih hrun.2 (hstep s e h0 hrun.1)

theorem eachStep_iff {C : σ → ε → Prop} :
    EachStep step C s es ↔ ∀ pre e, pre ++ [e] <+: es → C (exec step s pre) e := by
  induction es generalizing s with
  | nil => simp [EachStep]
  | cons e es ih =>
    rw [EachStep, ih]
    refine ⟨?_, ?_⟩
    · rintro ⟨hfirst, hrest⟩ pre e' hpre
      cases pre with
      | nil =>
        cases (List.cons_prefix_cons.mp hpre).1
        exact hfirst
      | cons d pre =>
        obtain ⟨rfl, hpre'⟩ := List.cons_prefix_cons.mp hpre
        exact hrest pre e' hpre'
    · intro h
      refine ⟨h [] e (List.prefix_append [e] es), ?_⟩
      intro pre e' hpre
      exact h (e :: pre) e' (List.cons_prefix_cons.mpr ⟨rfl, hpre⟩)

/-- A condition on the steps gives another, with an invariant that it keeps. -/
theorem EachStep.mono {C D : σ → ε → Prop} {I : σ → Prop} (hrun : EachStep step C s es) (h0 : I s)
    (hstep : ∀ s e, I s → C s e → I (step s e)) (h : ∀ s e, I s → C s e → D s e) : EachStep step D s es := by
  induction es generalizing s with
  | nil => trivial
  | cons e es ih => exact ⟨h s e h0 hrun.1, ih hrun.2 (hstep s e h0 hrun.1)⟩

/-- Where a step that does not meet the condition ends the property, the property holds all
    along a run exactly when every step meets it. -/
theorem forall_prefix_iff {C : σ → ε → Prop} {I P : σ → Prop} (h0 : I s) (hI : ∀ s, I s → P s)
    (hstep : ∀ s e, I s → C s e → I (step s e)) (hend : ∀ s e, I s → P (step s e) → C s e) :
    (∀ pre, pre <+: es → P (exec step s pre)) ↔ EachStep step C s es := by
  induction es generalizing s with
  | nil =>
    refine ⟨fun _ => trivial, ?_⟩
    intro _ pre hpre
    rw [List.prefix_nil.mp hpre]
    exact hI s h0
  | cons e es ih =>
    refine ⟨?_, ?_⟩
    · intro h
      have hfirst : C s e := hend s e h0 (h [e] (List.prefix_append [e] es))
      refine ⟨hfirst, (ih (hstep s e h0 hfirst)).mp fun pre hpre => ?_⟩
      exact h (e :: pre) (List.cons_prefix_cons.mpr ⟨rfl, hpre⟩)
    · rintro ⟨hfirst, hrest⟩ pre hpre
      cases pre with
      | nil => exact hI s h0
      | cons d pre =>
        obtain ⟨rfl, hpre'⟩ := List.cons_prefix_cons.mp hpre
        exact (ih (hstep s d h0 hfirst)).mpr hrest pre hpre'

theorem eachStep_congr {C D : σ → ε → Prop} (h : ∀ s e, C s e ↔ D s e) :
    EachStep step C s es ↔ EachStep step D s es := by
  have : C = D := funext₂ fun s e => propext (h s e)
  rw [this]

/-- What the steps of the run put out, in order. -/
def trace (step : σ → ε → σ) (out : σ → ε → Option β) : σ → List ε → List β
  | _, [] => []
  | s, e :: es => (out s e).toList ++ trace step out (step s e) es

theorem forall_trace {out : σ → ε → Option β} {P : β → Prop} :
    (∀ b ∈ trace step out s es, P b) ↔ EachStep step (fun s e => ∀ b, out s e = some b → P b) s es := by
  induction es generalizing s with
  | nil => simp [trace, EachStep]
  | cons e es ih => simp only [trace, EachStep, List.forall_mem_append, Option.mem_toList, ih]

theorem exec_simulates {τ : Type} {step' : τ → ε → τ} {out : σ → ε → Option β} {out' : τ → ε → Option β} {t : τ}
    {C : σ → ε → Prop} {R : σ → τ → Prop} (hrun : EachStep step C s es) (h0 : R s t)
    (hstep : ∀ s t e, R s t → C s e → R (step s e) (step' t e) ∧ out s e = out' t e) :
    R (exec step s es) (exec step' t es) ∧ trace step out s es = trace step' out' t es := by
  induction es generalizing s t with
  | nil => exact ⟨h0, rfl⟩
  | cons e es ih =>
    obtain ⟨hnext, hout⟩ := hstep s t e h0 hrun.1
    obtain ⟨hend, htrace⟩ := ih hrun.2 hnext
    exact ⟨hend, by rw [trace, trace, hout, htrace]⟩

theorem exec_projects {τ δ : Type} {step' : τ → δ → τ} {t : τ} {C : σ → ε → Prop} {D : τ → δ → Prop} {R : σ → τ → Prop}
    (hrun : EachStep step C s es) (h0 : R s t)
    (hstep : ∀ s t e, R s t → C s e → ∃ ds, R (step s e) (exec step' t ds) ∧ EachStep step' D t ds) :
    ∃ ds, R (exec step s es) (exec step' t ds) ∧ EachStep step' D t ds := by
  induction es generalizing s t with
  | nil => exact ⟨[], h0, trivial⟩
  | cons e es ih =>
    obtain ⟨ds, hnext, hds⟩ := hstep s t e h0 hrun.1
    obtain ⟨ds', hend, hds'⟩ := ih hrun.2 hnext
    exact ⟨ds ++ ds', by rwa [exec_append], eachStep_append.mpr ⟨hds, hds'⟩⟩

end Overhauled.Machine
