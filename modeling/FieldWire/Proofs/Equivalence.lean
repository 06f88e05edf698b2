import FieldWire.Proofs.Equality

/-!
# Equality as an equivalence

Comparing decodes payloads and may leave what it compares in another state, so equality is a
function with three results.  It is an equivalence where its answers, each for the states before the
comparison, are those of one.
-/

set_option autoImplicit false

namespace FieldWire

/-- The answers of a comparison are those of an equivalence, as far as a domain goes. -/
structure EquivalenceOn {α : Type} (same : α → α → Bool × α × α) (Domain : α → Prop) : Prop where
  refl : ∀ value, Domain value → (same value value).1 = true
  symm : ∀ left right, Domain left → Domain right →
    (same left right).1 = true → (same right left).1 = true
  trans : ∀ first second third, Domain first → Domain second → Domain third →
    (same first second).1 = true → (same second third).1 = true → (same first third).1 = true

theorem EquivalenceOn.mono {α : Type} {same : α → α → Bool × α × α} {Domain Narrow : α → Prop}
    (equivalence : EquivalenceOn same Domain) (inside : ∀ value, Narrow value → Domain value) :
    EquivalenceOn same Narrow where
  refl value holds := equivalence.refl value (inside value holds)
  symm left right one two := equivalence.symm left right (inside left one) (inside right two)
  trans first second third one two three :=
    equivalence.trans first second third (inside first one) (inside second two) (inside third three)

/-- What is compared in the place of something else has its equivalence. -/
theorem EquivalenceOn.comap {α β : Type} {same : α → α → Bool × α × α} {whole : β → β → Bool × β × β}
    {Domain : α → Prop} {Whole : β → Prop} (equivalence : EquivalenceOn whole Whole) (put : α → β)
    (inside : ∀ value, Domain value → Whole (put value))
    (answer : ∀ left right, (whole (put left) (put right)).1 = (same left right).1) :
    EquivalenceOn same Domain where
  refl value holds := by
    rw [← answer]
    exact equivalence.refl _ (inside value holds)
  symm left right one two := by
    rw [← answer, ← answer]
    exact equivalence.symm _ _ (inside left one) (inside right two)
  trans first second third one two three := by
    rw [← answer, ← answer, ← answer]
    exact equivalence.trans _ _ _ (inside first one) (inside second two) (inside third three)

/-- It does not matter which of two values is on the left. -/
theorem EquivalenceOn.swap {α : Type} {same : α → α → Bool × α × α} {Domain : α → Prop}
    (equivalence : EquivalenceOn (fun left right => same right left) Domain) :
    EquivalenceOn same Domain where
  refl value holds := equivalence.refl value holds
  symm left right one two := equivalence.symm right left two one
  trans first second third one two three front back :=
    equivalence.trans third second first three two one back front

/-- A later state of a value that equals the earlier one. -/
def StaysEqual {α : Type} (same : α → α → Bool × α × α) (Domain : α → Prop) (value later : α) : Prop :=
  Domain value → Domain later ∧ (same value later).1 = true

theorem EquivalenceOn.stays_refl {α : Type} {same : α → α → Bool × α × α} {Domain : α → Prop}
    (equivalence : EquivalenceOn same Domain) (value : α) : StaysEqual same Domain value value :=
  fun holds => ⟨holds, equivalence.refl value holds⟩

theorem EquivalenceOn.stays_trans {α : Type} {same : α → α → Bool × α × α} {Domain : α → Prop}
    (equivalence : EquivalenceOn same Domain) (first second third : α)
    (before : StaysEqual same Domain first second) (after : StaysEqual same Domain second third) :
    StaysEqual same Domain first third := by
  intro one
  obtain ⟨two, front⟩ := before one
  obtain ⟨three, back⟩ := after two
  exact ⟨three, equivalence.trans _ _ _ one two three front back⟩

/-- Comparing what two values are told apart by is an equivalence. -/
theorem equivalenceOn_of_iff {α κ : Type} {same : α → α → Bool × α × α} {Domain : α → Prop}
    (key : α → κ) (iff : ∀ left right, Domain left → Domain right →
      ((same left right).1 = true ↔ key left = key right)) : EquivalenceOn same Domain where
  refl value holds := (iff value value holds holds).mpr rfl
  symm left right first second equal :=
    (iff right left second first).mpr ((iff left right first second).mp equal).symm
  trans first second third one two three front back := by
    rw [iff _ _ one two] at front
    rw [iff _ _ two three] at back
    exact (iff _ _ one three).mpr (front.trans back)

/-! ## Single values -/

namespace ElementFormat

theorem bool_equivalence (Domain : Bool → Prop) : EquivalenceOn bool.same Domain :=
  equivalenceOn_of_iff id fun _ _ _ _ => beq_iff_eq

theorem integer_equivalence (width : Width) (Domain : Integer width → Prop) :
    EquivalenceOn (integer width).same Domain :=
  equivalenceOn_of_iff (fun number => number.val) fun _ _ _ _ => beq_iff_eq

theorem text_equivalence (Domain : Text → Prop) : EquivalenceOn text.same Domain :=
  equivalenceOn_of_iff Text.bytes fun left right _ _ => Text.same_iff left right

end ElementFormat

/-! ## Sequences -/

section Sequences

variable {α : Type} {format : ElementFormat α} {Domain : α → Prop}

theorem ElementFormat.sameValues_iff (format : ElementFormat α) (lefts rights : List α) :
    (format.sameValues lefts rights).1 = true ↔
      List.Forall₂ (fun left right => (format.same left right).1 = true) lefts rights := by
  induction lefts generalizing rights with
  | nil => cases rights <;> simp [sameValues]
  | cons left lefts ih =>
    cases rights with
    | nil => simp [sameValues]
    | cons right rights =>
      rw [List.forall₂_cons, ← ih, sameValues]
      split <;> rename_i compared <;> simp [compared]

theorem Sequence.same_iff (format : ElementFormat α) (left right : Sequence α) :
    (left.same format right).1 = true ↔ List.Forall₂
      (fun left right => (format.same left right).1 = true) left.items right.items := by
  rw [← ElementFormat.sameValues_iff, Sequence.same]
  split
  · rfl
  · rename_i apart
    rw [ElementFormat.sameValues_iff]
    exact iff_of_false Bool.false_ne_true fun equal => apart equal.length_eq

theorem EquivalenceOn.forall₂_symm {same : α → α → Bool × α × α}
    (elements : EquivalenceOn same Domain) {lefts rights : List α}
    (one : ∀ left ∈ lefts, Domain left) (two : ∀ right ∈ rights, Domain right)
    (equal : List.Forall₂ (fun left right => (same left right).1 = true) lefts rights) :
    List.Forall₂ (fun left right => (same left right).1 = true) rights lefts := by
  induction equal with
  | nil => exact .nil
  | cons head _ ih =>
    obtain ⟨left, lefts⟩ := List.forall_mem_cons.mp one
    obtain ⟨right, rights⟩ := List.forall_mem_cons.mp two
    exact .cons (elements.symm _ _ left right head) (ih lefts rights)

theorem EquivalenceOn.forall₂_trans {same : α → α → Bool × α × α}
    (elements : EquivalenceOn same Domain) {firsts seconds thirds : List α}
    (one : ∀ first ∈ firsts, Domain first) (two : ∀ second ∈ seconds, Domain second)
    (three : ∀ third ∈ thirds, Domain third)
    (front : List.Forall₂ (fun left right => (same left right).1 = true) firsts seconds)
    (back : List.Forall₂ (fun left right => (same left right).1 = true) seconds thirds) :
    List.Forall₂ (fun left right => (same left right).1 = true) firsts thirds := by
  induction front generalizing thirds with
  | nil => exact back
  | cons head _ ih =>
    obtain ⟨first, firsts⟩ := List.forall_mem_cons.mp one
    obtain ⟨second, seconds⟩ := List.forall_mem_cons.mp two
    cases back with
    | cons next back =>
      obtain ⟨third, thirds⟩ := List.forall_mem_cons.mp three
      exact .cons (elements.trans _ _ _ first second third head next)
        (ih firsts seconds thirds back)

theorem stays_lists {same : α → α → Bool × α × α} {values later : List α}
    (stays : List.Forall₂ (StaysEqual same Domain) values later) (each : ∀ value ∈ values, Domain value) :
    (∀ value ∈ later, Domain value) ∧
      List.Forall₂ (fun left right => (same left right).1 = true) values later := by
  induction stays with
  | nil => exact ⟨each, .nil⟩
  | cons head _ ih =>
    obtain ⟨first, rest⟩ := List.forall_mem_cons.mp each
    obtain ⟨holds, equal⟩ := head first
    obtain ⟨others, equals⟩ := ih rest
    exact ⟨List.forall_mem_cons.mpr ⟨holds, others⟩, .cons equal equals⟩

theorem Sequence.equivalence (elements : EquivalenceOn format.same Domain) :
    EquivalenceOn (Sequence.same format) fun sequence => ∀ item ∈ sequence.items, Domain item where
  refl sequence each := Sequence.same_self fun item member => elements.refl item (each item member)
  symm left right one two equal := by
    rw [same_iff] at equal ⊢
    exact elements.forall₂_symm one two equal
  trans first second third one two three front back := by
    rw [same_iff] at front back ⊢
    exact elements.forall₂_trans one two three front back

end Sequences

end FieldWire
