/-
  Overhauled.Machine.Scan — the loop over `0, …, n - 1` that keeps the best candidate so
  far and its score, and replaces it by a candidate of a strictly higher score.

  What it keeps at the end (`scan_cases`) is either what it started with, when no
  candidate scores higher than that, or the first of the candidates that score highest
  (`FirstBest`), of which there is one (`FirstBest.unique`). A loop for the lowest score is
  the same one over the dual order.
-/

import Mathlib

namespace Overhauled.Machine

section
variable {α β : Type} [LinearOrder α] (mk : Nat → β) (cand : Nat → Prop) [DecidablePred cand] (score : Nat → α)

/-- One turn of the loop; `mk j` is what is kept of the candidate `j`. -/
def improve (best : β × α) (j : Nat) : β × α :=
  if cand j ∧ best.2 < score j then (mk j, score j) else best

def scan (start : β × α) (n : Nat) : β × α := (List.range n).foldl (improve mk cand score) start

/-- Of the candidates below `n`, the first that scores highest. -/
structure FirstBest {α : Type} [LinearOrder α] (cand : Nat → Prop) (score : Nat → α) (n b : Nat) : Prop where
  lt : b < n
  candidate : cand b
  highest : ∀ j < n, cand j → score j ≤ score b
  first : ∀ j < b, cand j → score j < score b

theorem scan_succ (start : β × α) (n : Nat) :
    scan mk cand score start (n + 1) = improve mk cand score (scan mk cand score start n) n := by
  unfold scan
  rw [List.range_succ, List.foldl_append]
  rfl

theorem scan_cases (start : β × α) (n : Nat) :
    (scan mk cand score start n = start ∧ ∀ j < n, cand j → score j ≤ start.2) ∨
      ∃ b, scan mk cand score start n = (mk b, score b) ∧ start.2 < score b ∧ FirstBest cand score n b := by
  induction n with
  | zero => exact .inl ⟨rfl, fun j hj => absurd hj (Nat.not_lt_zero j)⟩
  | succ n ih =>
    rw [scan_succ]
    unfold improve
    rcases ih with ⟨hscan, hle⟩ | ⟨b, hscan, hlt, hbest⟩ <;> rw [hscan] <;> split
    · -- the first candidate to beat the start
      rename_i hn
      have hbeats : ∀ j < n, cand j → score j < score n := fun j hj hc => (hle j hj hc).trans_lt hn.2
      refine .inr ⟨n, rfl, hn.2, ⟨Nat.lt_succ_self n, hn.1, ?_, hbeats⟩⟩
      exact Nat.forall_lt_succ_right.mpr ⟨fun j hj hc => (hbeats j hj hc).le, fun _ => le_rfl⟩
    · rename_i hn
      exact .inl ⟨rfl, Nat.forall_lt_succ_right.mpr ⟨hle, fun hc => not_lt.mp fun h => hn ⟨hc, h⟩⟩⟩
    · -- a candidate that beats the best so far
      rename_i hn
      have hbeats : ∀ j < n, cand j → score j < score n := fun j hj hc => (hbest.highest j hj hc).trans_lt hn.2
      refine .inr ⟨n, rfl, hlt.trans hn.2, ⟨Nat.lt_succ_self n, hn.1, ?_, hbeats⟩⟩
      exact Nat.forall_lt_succ_right.mpr ⟨fun j hj hc => (hbeats j hj hc).le, fun _ => le_rfl⟩
    · rename_i hn
      refine .inr ⟨b, rfl, hlt, ⟨hbest.lt.trans (Nat.lt_succ_self n), hbest.candidate, ?_, hbest.first⟩⟩
      exact Nat.forall_lt_succ_right.mpr ⟨hbest.highest, fun hc => not_lt.mp fun h => hn ⟨hc, h⟩⟩

end

theorem FirstBest.unique {α : Type} [LinearOrder α] {cand : Nat → Prop} {score : Nat → α} {n b c : Nat}
    (hb : FirstBest cand score n b) (hc : FirstBest cand score n c) : b = c := by
  rcases Nat.lt_trichotomy b c with h | h | h
  · exact absurd (hc.first b h hb.candidate) (not_lt.mpr (hb.highest c hc.lt hc.candidate))
  · exact h
  · exact absurd (hb.first c h hc.candidate) (not_lt.mpr (hc.highest b hb.lt hb.candidate))

end Overhauled.Machine
