import Mathlib.Data.Set.Lattice
import Mathlib.Order.CompletePartialOrder

/-! # Regions of a state

A state is determined by what it holds at locations. A step that reads and changes a
region only is taken alike from every state that agrees on the region; two such steps
on disjoint regions can be taken in either order.
-/

set_option autoImplicit false

namespace Transition

/-- What states hold at locations. -/
structure Memory (σ ι ν : Type*) where

  read : ι → σ → ν

  ext : ∀ {s t : σ}, (∀ i, read i s = read i t) → s = t

namespace Memory

variable {σ ι ν : Type*} (m : Memory σ ι ν)

/-- Two states hold the same in a region. -/
def Agree (R : Set ι) (s t : σ) : Prop := ∀ i ∈ R, m.read i s = m.read i t

/-- A function that reads and changes a region only. -/
structure Confined (R : Set ι) (e : σ → σ) : Prop where

  frame : ∀ s, m.Agree Rᶜ s (e s)

  congr : ∀ {s t}, m.Agree R s t → m.Agree R (e s) (e t)

/-- A step of a relation that reads and changes a region only: the relation takes it, with the
same result in the region, from every state that agrees there. -/
structure Local (r : σ → σ → Prop) (R : Set ι) (s s' : σ) : Prop where

  frame : m.Agree Rᶜ s s'

  step : ∀ t, m.Agree R s t → ∃ t', r t t' ∧ m.Agree R s' t' ∧ m.Agree Rᶜ t t'

variable {m} {r q : σ → σ → Prop} {R R' : Set ι} {s t u v w : σ} {e e' : σ → σ}

namespace Agree

theorem refl (s : σ) : m.Agree R s s := fun _ _ => rfl

theorem symm (h : m.Agree R s t) : m.Agree R t s := fun i hi => (h i hi).symm

theorem trans (h : m.Agree R s t) (h' : m.Agree R t u) : m.Agree R s u :=
  fun i hi => (h i hi).trans (h' i hi)

theorem mono (h : m.Agree R s t) (hR : R' ⊆ R) : m.Agree R' s t := fun i hi => h i (hR hi)

theorem of_disjoint (h : m.Agree Rᶜ s t) (hR : Disjoint R R') : m.Agree R' s t :=
  h.mono hR.subset_compl_left

theorem eq (h : m.Agree R s t) (h' : m.Agree R' s t) (ho : m.Agree (Rᶜ ∩ R'ᶜ) s t) : s = t := by
  apply m.ext
  intro i
  by_cases hi : i ∈ R
  · exact h i hi
  · by_cases hi' : i ∈ R'
    · exact h' i hi'
    · exact ho i ⟨hi, hi'⟩

end Agree

namespace Confined

theorem id : m.Confined R fun s => s := ⟨fun s => .refl s, fun h => h⟩

theorem comp (he : m.Confined R e) (he' : m.Confined R e') : m.Confined R fun s => e' (e s) :=
  ⟨fun s => (he.frame s).trans (he'.frame (e s)), fun h => he'.congr (he.congr h)⟩

theorem local_of (he : m.Confined R e) (h : ∀ t, m.Agree R s t → r t (e t)) :
    m.Local r R s (e s) :=
  ⟨he.frame s, fun t ht => ⟨e t, h t ht, he.congr ht, he.frame t⟩⟩

end Confined

namespace Local

theorem mono (h : m.Local r R s t) (hrq : ∀ s t, r s t → q s t) : m.Local q R s t :=
  ⟨h.frame, fun u hu => (h.step u hu).imp fun _ hv => hv.imp_left (hrq _ _)⟩

theorem and_end {P : σ → Prop} (h : m.Local r R s t) (hP : ∀ u, m.Agree R t u → P u) :
    m.Local (fun s t => r s t ∧ P t) R s t :=
  ⟨h.frame, fun u hu => by
    obtain ⟨v, hv, ht, hf⟩ := h.step u hu
    exact ⟨v, ⟨hv, hP v ht⟩, ht, hf⟩⟩

theorem comp (h : m.Local r R s t) (h' : m.Local q R t u) :
    m.Local (fun s u => ∃ t, r s t ∧ q t u) R s u := by
  refine ⟨h.frame.trans h'.frame, fun s' hs => ?_⟩
  obtain ⟨t', hr, ht, hf⟩ := h.step s' hs
  obtain ⟨u', hq, hu, hf'⟩ := h'.step t' ht
  exact ⟨u', ⟨t', hr, hq⟩, hu, hf.trans hf'⟩

/-- Two steps in a row on disjoint regions can be taken the other way round. -/
theorem swap (hR : Disjoint R R') (h : m.Local r R s u) (h' : m.Local q R' u w) :
    ∃ v, q s v ∧ r v w := by
  obtain ⟨v, hq, hwv, hsv⟩ := h'.step s (h.frame.of_disjoint hR).symm
  obtain ⟨w', hr, huw, hvw⟩ := h.step v (hsv.of_disjoint hR.symm)
  have hw : w = w' := by
    have hon : m.Agree R w w' := (h'.frame.of_disjoint hR.symm).symm.trans huw
    have hon' : m.Agree R' w w' := hwv.trans (hvw.of_disjoint hR)
    apply hon.eq hon'
    have hwu := (h'.frame.mono Set.inter_subset_right : m.Agree (Rᶜ ∩ R'ᶜ) u w).symm
    have hus := (h.frame.mono Set.inter_subset_left : m.Agree (Rᶜ ∩ R'ᶜ) s u).symm
    have hsw := (hsv.mono Set.inter_subset_right).trans (hvw.mono Set.inter_subset_left)
    exact (hwu.trans hus).trans hsw
  exact ⟨v, hq, hw ▸ hr⟩

/-- Two steps from one state on disjoint regions join. -/
theorem diamond (hR : Disjoint R R') (h : m.Local r R s u) (h' : m.Local q R' s v) :
    ∃ w, q u w ∧ r v w := by
  obtain ⟨w, hq, hvw, huw⟩ := h'.step u (h.frame.of_disjoint hR)
  obtain ⟨w', hr, huw', hvw'⟩ := h.step v (h'.frame.of_disjoint hR.symm)
  have hw : w = w' := by
    have hon : m.Agree R w w' := (huw.of_disjoint hR.symm).symm.trans huw'
    have hon' : m.Agree R' w w' := hvw.symm.trans (hvw'.of_disjoint hR)
    apply hon.eq hon'
    have hwu := (huw.mono Set.inter_subset_right : m.Agree (Rᶜ ∩ R'ᶜ) u w).symm
    have hus := (h.frame.mono Set.inter_subset_left : m.Agree (Rᶜ ∩ R'ᶜ) s u).symm
    have hsv := (h'.frame.mono Set.inter_subset_right : m.Agree (Rᶜ ∩ R'ᶜ) s v)
    exact ((hwu.trans hus).trans hsv).trans (hvw'.mono Set.inter_subset_left)
  exact ⟨w, hq, hw ▸ hr⟩

end Local

end Memory

end Transition
