import Mathlib.Data.List.Pairwise
import Mathlib.Order.Basic
import Mathlib.Order.Lattice

namespace CdcPipeline.Library

/-- A gate that lets a version through when it is newer than the last one it remembers.
What it has let through is listed with the newest first. -/
structure Gate (ν : Type) where
  held : Option ν
  passed : List ν

namespace Gate

variable {ν : Type} [LinearOrder ν]

def empty : Gate ν := ⟨none, []⟩

def refuses (g : Gate ν) (v : ν) : Prop := ∃ w, g.held = some w ∧ v ≤ w

def pass (g : Gate ν) (v : ν) : Gate ν := ⟨some v, v :: g.passed⟩

/-- One version is offered. -/
inductive Offer (g : Gate ν) (v : ν) : Gate ν → Prop where
  | refused (h : g.refuses v) : Offer g v g
  | passed (h : ¬ g.refuses v) : Offer g v (g.pass v)

/-- What a gate remembers is the last version it let through, and it has let through
something as new as each version it was offered. -/
structure Sound (g : Gate ν) (offered : List ν) : Prop where
  remembers : ∀ w, g.held = some w → g.passed.head? = some w
  covers : ∀ v ∈ offered, ∃ w ∈ g.passed, v ≤ w
  only : ∀ w ∈ g.passed, w ∈ offered

def Increasing (g : Gate ν) : Prop := g.passed.Pairwise (fun newer older => older < newer)

theorem Sound.offer {g g' : Gate ν} {offered : List ν} {v : ν} (h : g.Sound offered)
    (ho : g.Offer v g') : g'.Sound (v :: offered) := by
  cases ho with
  | refused hr =>
    obtain ⟨w, hw, hv⟩ := hr
    refine ⟨h.remembers, fun u hu => ?_, fun u hu => List.mem_cons_of_mem _ (h.only u hu)⟩
    rcases List.mem_cons.mp hu with rfl | hu
    · exact ⟨w, List.mem_of_head? (h.remembers w hw), hv⟩
    · exact h.covers u hu
  | passed hr =>
    refine ⟨fun w hw => hw, fun u hu => ?_, fun u hu => ?_⟩
    · rcases List.mem_cons.mp hu with rfl | hu
      · exact ⟨u, List.mem_cons_self, le_refl u⟩
      · obtain ⟨w, hw, hle⟩ := h.covers u hu
        exact ⟨w, List.mem_cons_of_mem _ hw, hle⟩
    · rcases List.mem_cons.mp hu with rfl | hu
      · exact List.mem_cons_self
      · exact List.mem_cons_of_mem _ (h.only u hu)

/-- The first of an increasing history, newest first, is as new as everything offered. -/
theorem Increasing.newest {g : Gate ν} {offered : List ν} (hi : g.Increasing)
    (h : g.Sound offered) {w : ν} (hw : g.passed.head? = some w) : ∀ v ∈ offered, v ≤ w := by
  intro v hv
  obtain ⟨u, hu, hle⟩ := h.covers v hv
  obtain ⟨rest, hrest⟩ := List.head?_eq_some_iff.mp hw
  rw [hrest] at hu
  rcases List.mem_cons.mp hu with rfl | hu
  · exact hle
  · have hall := hi
    rw [Increasing, hrest] at hall
    exact hle.trans (le_of_lt (List.rel_of_pairwise_cons hall hu))

end Gate

end CdcPipeline.Library
