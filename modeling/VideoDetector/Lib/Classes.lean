import Mathlib.Data.Fintype.EquivFin
import Mathlib.Data.List.OfFn
import Mathlib.Data.Finset.Image
import Mathlib.Logic.Relation

/-!
# The classes of a generated equivalence

A relation on a finite type generates an equivalence; its classes are finite sets. Labels that agree on equivalent elements,
and on no others, list the classes (`classes_val_of_labels`). A bijection that keeps the relation takes classes to classes
(`classes_val_map`), and two lists of the same elements are related by one (`exists_equiv_of_perm`).
-/

namespace VideoDetector.Lib
set_option autoImplicit false

section
variable {α β : Type} [Fintype α] [Fintype β]

open Classical in
/-- The elements that are equivalent to one of them. -/
noncomputable def classOf (r : α → α → Prop) (i : α) : Finset α := Finset.univ.filter fun j => Relation.EqvGen r i j

open Classical in
noncomputable def classes (r : α → α → Prop) : Finset (Finset α) := Finset.univ.image (classOf r)

variable {r : α → α → Prop} {s : β → β → Prop} {i j : α}

@[simp] theorem mem_classOf : j ∈ classOf r i ↔ Relation.EqvGen r i j := by
  simp [classOf]

theorem self_mem_classOf (r : α → α → Prop) (i : α) : i ∈ classOf r i := mem_classOf.mpr (.refl i)

theorem classOf_eq_iff : classOf r i = classOf r j ↔ Relation.EqvGen r i j := by
  constructor
  · intro same
    rw [← mem_classOf, same]
    exact self_mem_classOf r j
  · intro related
    ext k
    rw [mem_classOf, mem_classOf]
    exact ⟨(related.symm _ _).trans _ _ _, related.trans _ _ _⟩

theorem mem_classes {C : Finset α} : C ∈ classes r ↔ ∃ i, classOf r i = C := by
  simp [classes]

theorem classes_card_pos {C : Finset α} (member : C ∈ classes r) : 0 < C.card := by
  obtain ⟨i, rfl⟩ := mem_classes.mp member
  exact Finset.card_pos.mpr ⟨i, self_mem_classOf r i⟩

/-! ## Labels -/

section
variable {ι : Type} [DecidableEq ι] {labels : α → ι}

theorem classOf_of_labels (same : ∀ i j, labels i = labels j ↔ Relation.EqvGen r i j) (i : α) :
    classOf r i = Finset.univ.filter fun j => labels j = labels i := by
  ext j
  rw [mem_classOf, ← same, Finset.mem_filter]
  simp [eq_comm]

theorem classes_val_of_labels (same : ∀ i j, labels i = labels j ↔ Relation.EqvGen r i j) {names : List ι} (once : names.Nodup)
    (named : ∀ c, c ∈ names ↔ ∃ i, labels i = c) :
    (classes r).val = names.map fun c => Finset.univ.filter fun j => labels j = c := by
  have different : (names.map fun c => Finset.univ.filter fun j => labels j = c).Nodup := by
    refine once.map_on fun c member c' _ equal => ?_
    obtain ⟨i, rfl⟩ := (named c).mp member
    have own : i ∈ Finset.univ.filter fun j => labels j = labels i := by simp
    rw [equal, Finset.mem_filter] at own
    exact own.2
  refine (Multiset.Nodup.ext (classes r).nodup (Multiset.coe_nodup.mpr different)).mpr fun C => ?_
  rw [Finset.mem_val, mem_classes, Multiset.mem_coe, List.mem_map]
  constructor
  · rintro ⟨i, rfl⟩
    exact ⟨labels i, (named _).mpr ⟨i, rfl⟩, (classOf_of_labels same i).symm⟩
  · rintro ⟨c, member, rfl⟩
    obtain ⟨i, rfl⟩ := (named c).mp member
    exact ⟨i, classOf_of_labels same i⟩

end

/-! ## Bijections -/

omit [Fintype α] [Fintype β] in
theorem eqvGen_map (e : α ≃ β) (keep : ∀ i j, s (e i) (e j) ↔ r i j) : Relation.EqvGen s (e i) (e j) ↔ Relation.EqvGen r i j := by
  constructor
  · intro related
    generalize from_ : e i = x at related
    generalize to_ : e j = y at related
    induction related generalizing i j with
    | rel x y one =>
      subst from_ to_
      exact .rel i j ((keep i j).mp one)
    | refl x => exact e.injective (from_.trans to_.symm) ▸ .refl i
    | symm x y _ ih => exact (ih to_ from_).symm _ _
    | trans x y z _ _ first second =>
      exact (first (j := e.symm y) from_ (e.apply_symm_apply y)).trans _ _ _ (second (e.apply_symm_apply y) to_)
  · intro related
    induction related with
    | rel i j one => exact .rel _ _ ((keep i j).mpr one)
    | refl i => exact .refl _
    | symm i j _ ih => exact ih.symm _ _
    | trans i j k _ _ first second => exact first.trans _ _ _ second

theorem classOf_map (e : α ≃ β) (keep : ∀ i j, s (e i) (e j) ↔ r i j) (i : α) :
    classOf s (e i) = (classOf r i).map e.toEmbedding := by
  ext y
  rw [Finset.mem_map_equiv, mem_classOf, mem_classOf, ← eqvGen_map e keep, e.apply_symm_apply]

theorem classes_val_map (e : α ≃ β) (keep : ∀ i j, s (e i) (e j) ↔ r i j) :
    (classes s).val = (classes r).val.map (Finset.map e.toEmbedding) := by
  refine (Multiset.Nodup.ext (classes s).nodup ((classes r).nodup.map (Finset.map_injective _))).mpr fun D => ?_
  rw [Finset.mem_val, mem_classes, Multiset.mem_map]
  constructor
  · rintro ⟨y, rfl⟩
    refine ⟨classOf r (e.symm y), mem_classes.mpr ⟨_, rfl⟩, ?_⟩
    rw [← classOf_map e keep, e.apply_symm_apply]
  · rintro ⟨C, member, rfl⟩
    obtain ⟨i, rfl⟩ := mem_classes.mp member
    exact ⟨e i, classOf_map e keep i⟩

end

/-! ## Lists of the same elements -/

theorem card_get_eq {γ : Type} [DecidableEq γ] (l : List γ) (a : γ) : Fintype.card {i : Fin l.length // l.get i = a} = l.count a := by
  have all : Finset.univ.val.map l.get = (l : Multiset γ) := by
    rw [Fin.univ_val_map, List.ofFn_get]
  rw [Fintype.card_subtype, Finset.card, Finset.filter_val, ← Multiset.coe_count, ← all, Multiset.count_map]
  simp [eq_comm]

theorem exists_equiv_of_perm {γ : Type} [DecidableEq γ] {l l' : List γ} (same : l.Perm l') :
    ∃ e : Fin l.length ≃ Fin l'.length, ∀ i, l'.get (e i) = l.get i := by
  have fibre (a : γ) : {i : Fin l.length // l.get i = a} ≃ {i : Fin l'.length // l'.get i = a} :=
    Fintype.equivOfCardEq (by rw [card_get_eq, card_get_eq, same.count_eq])
  refine ⟨(Equiv.sigmaFiberEquiv l.get).symm.trans ((Equiv.sigmaCongrRight fibre).trans (Equiv.sigmaFiberEquiv l'.get)), fun i => ?_⟩
  exact (fibre (l.get i) ⟨i, rfl⟩).2

end VideoDetector.Lib
