import FieldWire.Proofs.Dictionary
import FieldWire.Proofs.Tree
import Mathlib.Data.List.Nodup

/-!
# Built objects

An object is built if it comes from the empty one by the operations that change it.  In between it
may be looked at, and then it remembers sizes.  Every operation that changes an object forgets what
it remembered, so that a built object never remembers a size that is wrong.
-/

set_option autoImplicit false

namespace FieldWire

/-- Nothing wrong is held, and nothing wrong is remembered. -/
structure View.Sound {α : Type} (view : View α) (value : α) : Prop where
  valid : view.Valid value
  exact : view.Exact value

theorem View.Alike.sound {α : Type} {view : View α} {value later : α}
    (alike : view.Alike value later) (sound : view.Sound value) : view.Sound later :=
  ⟨alike.valid sound.valid, alike.exact sound.exact⟩

namespace ObjectFormat

variable {σ : Type} {format : ObjectFormat σ} {view : View σ} {Step : σ → σ → Prop}

/-- The state of an object after its size or its bytes were asked for. -/
inductive Look (format : ObjectFormat σ) (object : σ) : σ → Prop where
  | size : Look format object (format.size object).2
  | encode : Look format object (format.encode object).2

/-- The objects that some steps make of the empty one. -/
inductive Built (format : ObjectFormat σ) (Step : σ → σ → Prop) : σ → Prop where
  | empty : Built format Step format.empty
  | step {object later : σ} : Built format Step object → Step object later → Built format Step later
  | look {object later : σ} : Built format Step object → format.Look object later →
      Built format Step later

theorem Faithful.alike_of_look (faithful : format.Faithful view) {object later : σ}
    (valid : view.Valid object) (look : format.Look object later) : view.Alike object later := by
  cases look with
  | size => exact faithful.afterSize object valid
  | encode => exact faithful.afterEncode object valid

theorem Built.sound (faithful : format.Faithful view) (start : view.Sound format.empty)
    (steps : ∀ object later, Step object later → view.Sound object → view.Sound later) {object : σ}
    (built : format.Built Step object) : view.Sound object := by
  induction built with
  | empty => exact start
  | step _ step ih => exact steps _ _ step ih
  | look _ look ih => exact (faithful.alike_of_look ih.valid look).sound ih

theorem Faithful.serialize_eq (faithful : format.Faithful view) {object : σ}
    (sound : view.Sound object) : (format.serialize object).1 = Write.blob (view.bytes object) :=
  faithful.encode_eq object sound.valid sound.exact

/-- Asking for the size changes nothing in the bytes. -/
theorem Faithful.encode_size (faithful : format.Faithful view) {object : σ}
    (sound : view.Sound object) :
    (format.encode (format.size object).2).1 = (format.encode object).1 := by
  have alike := faithful.afterSize object sound.valid
  have later := alike.sound sound
  rw [faithful.encode_eq _ later.valid later.exact, alike.bytes,
    faithful.encode_eq object sound.valid sound.exact]

/-- The size of a sound object is its own bound. -/
theorem Faithful.weighed (faithful : format.Faithful view) {object : σ} (sound : view.Sound object)
    (small : (format.size object).1 < 2 ^ 62) : format.Weighed view object := by
  have size := faithful.size_eq object sound.valid sound.exact
  refine ⟨sound.valid, faithful.encode_size sound, small, view.bytes object, ?_, ?_⟩
  · rw [faithful.encode_eq object sound.valid sound.exact, size]
    rfl
  · rw [size]
    exact (Bounds.refl _).imp fun _ => sound.exact

end ObjectFormat

/-! ## Sequences -/

namespace Sequence

variable {α : Type} {scheme : WireType} {element : View α} {Element : α → Prop}

/-- The operations that change a sequence. -/
inductive Step (Element : α → Prop) (sequence : Sequence α) : Sequence α → Prop where
  | ofList {items : List α} (each : ∀ item ∈ items, Element item) :
      Step Element sequence (ofList items)
  | push {value : α} (holds : Element value) : Step Element sequence (sequence.push value)
  | append {values : List α} (each : ∀ value ∈ values, Element value) :
      Step Element sequence (sequence.append values)
  | replace (index : Nat) {value : α} (holds : Element value) :
      Step Element sequence (sequence.replace index value).2
  | clear : Step Element sequence sequence.clear

theorem sound_of_none {items : List α} (each : ∀ item ∈ items, element.Sound item) :
    (Sequence.view scheme element).Sound ⟨items, none⟩ :=
  ⟨fun item member => (each item member).valid, remembers_none _,
    fun item member => (each item member).exact⟩

theorem sound_items {sequence : Sequence α} (sound : (Sequence.view scheme element).Sound sequence) :
    ∀ item ∈ sequence.items, element.Sound item := by
  intro item member
  exact ⟨sound.valid item member, sound.exact.2 item member⟩

theorem sound_of_step (elements : ∀ value, Element value → element.Sound value)
    {sequence later : Sequence α} (step : Step Element sequence later)
    (sound : (Sequence.view scheme element).Sound sequence) :
    (Sequence.view scheme element).Sound later := by
  have old := sound_items sound
  cases step with
  | ofList each => exact sound_of_none fun item member => elements item (each item member)
  | push holds =>
    apply sound_of_none
    intro item member
    rcases List.mem_append.mp member with before | new
    · exact old item before
    · obtain rfl := List.mem_singleton.mp new
      exact elements item holds
  | append each =>
    rw [append]
    split
    · exact sound
    · apply sound_of_none
      intro item member
      rcases List.mem_append.mp member with before | new
      · exact old item before
      · exact elements item (each item new)
  | replace index holds =>
    rw [replace]
    split
    · apply sound_of_none
      intro item member
      rcases List.mem_or_eq_of_mem_set member with before | rfl
      · exact old item before
      · exact elements item holds
    · exact sound
  | clear =>
    apply sound_of_none
    intro item member
    cases member

theorem sound_empty : (Sequence.view scheme element).Sound empty :=
  sound_of_none fun item member => by cases member

end Sequence

/-! ## Dictionaries -/

namespace Dictionary

variable {α : Type} {scheme : WireType} {element : View α} {Element : α → Prop}

/-- The operations that change a dictionary. -/
inductive Step (Element : α → Prop) (dictionary : Dictionary α) : Dictionary α → Prop where
  | ofList {entries : List (Text × α)} (each : ∀ entry ∈ entries, Element entry.2) :
      Step Element dictionary (ofList entries)
  | insert (key : Text) {value : α} (holds : Element value) :
      Step Element dictionary (dictionary.insert key value).2
  | erase (key : Bytes) : Step Element dictionary (dictionary.erase key).2

theorem sound_of_none {entries : List (Text × α)} (distinct : (keyBytes entries).Nodup)
    (each : ∀ entry ∈ entries, element.Sound entry.2) :
    (Dictionary.view scheme element).Sound ⟨entries, none⟩ := by
  have values : ∀ value ∈ entries.map (·.2), element.Sound value := by
    intro value member
    obtain ⟨entry, inside, rfl⟩ := List.mem_map.mp member
    exact each entry inside
  have keys : ((entries.map (·.1)).map Text.bytes).Nodup := by
    rw [List.map_map]
    exact distinct
  exact ⟨⟨keys, fun value member => (values value member).valid⟩, remembers_none _,
    fun value member => (values value member).exact⟩

theorem sound_entries {dictionary : Dictionary α}
    (sound : (Dictionary.view scheme element).Sound dictionary) :
    (keyBytes dictionary.entries).Nodup ∧
      ∀ entry ∈ dictionary.entries, element.Sound entry.2 := by
  have keys := sound.valid.1
  rw [List.map_map] at keys
  refine ⟨keys, ?_⟩
  intro entry member
  have inside := List.mem_map_of_mem (f := (·.2)) member
  exact ⟨sound.valid.2 _ inside, sound.exact.2 _ inside⟩

theorem keyBytes_overwrite (key : Bytes) (value : α) (entries : List (Text × α)) :
    keyBytes (overwrite key value entries) = keyBytes entries := by
  induction entries with
  | nil => rfl
  | cons entry rest ih =>
    rw [overwrite]
    split
    · rfl
    · rw [keyBytes, List.map_cons, ← keyBytes, ih]
      rfl

theorem mem_overwrite {key : Bytes} {value : α} {entries : List (Text × α)} {entry : Text × α}
    (member : entry ∈ overwrite key value entries) : entry ∈ entries ∨ entry.2 = value := by
  induction entries with
  | nil => cases member
  | cons first rest ih =>
    rw [overwrite] at member
    split at member
    · rcases List.mem_cons.mp member with rfl | inside
      · exact .inr rfl
      · exact .inl (List.mem_cons_of_mem _ inside)
    · rcases List.mem_cons.mp member with rfl | inside
      · exact .inl List.mem_cons_self
      · exact (ih inside).imp (List.mem_cons_of_mem _) id

theorem eraseKey_sublist (key : Bytes) (entries : List (Text × α)) :
    (eraseKey key entries).Sublist entries := by
  induction entries with
  | nil => exact List.Sublist.refl _
  | cons entry rest ih =>
    rw [eraseKey]
    split
    · exact List.sublist_cons_self _ _
    · exact ih.cons_cons entry

theorem sound_insert {dictionary : Dictionary α} (key : Text) {value : α}
    (sound : (Dictionary.view scheme element).Sound dictionary) (new : element.Sound value) :
    (Dictionary.view scheme element).Sound (dictionary.insert key value).2 := by
  obtain ⟨distinct, old⟩ := sound_entries sound
  rw [insert]
  split
  · apply sound_of_none
    · rw [keyBytes_overwrite]
      exact distinct
    · intro entry member
      rcases mem_overwrite member with before | here
      · exact old entry before
      · rw [here]
        exact new
  · rename_i missing
    apply sound_of_none
    · have fresh : key.bytes ∉ keyBytes dictionary.entries := by
        rw [← lookup?_isSome_iff, ← get?, missing]
        exact Bool.false_ne_true
      rw [keyBytes, List.map_append]
      refine List.nodup_append.mpr ⟨distinct, List.nodup_singleton _, ?_⟩
      intro before there after here same
      obtain rfl := List.mem_singleton.mp here
      rw [same] at there
      exact fresh there
    · intro entry member
      rcases List.mem_append.mp member with before | here
      · exact old entry before
      · obtain rfl := List.mem_singleton.mp here
        exact new

theorem sound_empty : (Dictionary.view scheme element).Sound empty :=
  sound_of_none List.nodup_nil fun entry member => by cases member

theorem sound_ofList {entries : List (Text × α)}
    (each : ∀ entry ∈ entries, element.Sound entry.2) :
    (Dictionary.view scheme element).Sound (ofList entries) := by
  have all : ∀ start, (Dictionary.view scheme element).Sound start →
      (Dictionary.view scheme element).Sound
        (entries.foldl (fun dictionary entry => (dictionary.insert entry.1 entry.2).2) start) := by
    induction entries with
    | nil => exact fun start sound => sound
    | cons entry rest ih =>
      intro start sound
      exact ih (fun other member => each other (List.mem_cons_of_mem _ member)) _
        (sound_insert entry.1 sound (each entry List.mem_cons_self))
  exact all empty sound_empty

theorem sound_of_step (elements : ∀ value, Element value → element.Sound value)
    {dictionary later : Dictionary α} (step : Step Element dictionary later)
    (sound : (Dictionary.view scheme element).Sound dictionary) :
    (Dictionary.view scheme element).Sound later := by
  cases step with
  | ofList each => exact sound_ofList fun entry member => elements _ (each entry member)
  | insert key holds => exact sound_insert key sound (elements _ holds)
  | erase key =>
    obtain ⟨distinct, old⟩ := sound_entries sound
    rw [erase]
    split
    · have fewer := eraseKey_sublist key dictionary.entries
      exact sound_of_none ((fewer.map _).nodup distinct)
        fun entry member => old entry (fewer.subset member)
    · exact sound

end Dictionary

/-! ## Trees -/

namespace Tree

/-- The trees that come from the leaf by operations on their subtrees. -/
inductive Built : Tree → Prop where
  | leaf : Built leaf
  | ofList {trees : List Tree} : (∀ tree ∈ trees, Built tree) → Built (node (Sequence.ofList trees))
  | push {tree child : Tree} : Built tree → Built child → Built (node (tree.children.push child))
  | append {tree : Tree} {trees : List Tree} : Built tree → (∀ child ∈ trees, Built child) →
      Built (node (tree.children.append trees))
  | replace {tree child : Tree} (index : Nat) : Built tree → Built child →
      Built (node (tree.children.replace index child).2)
  | clear {tree : Tree} : Built tree → Built (node tree.children.clear)
  | look {tree later : Tree} : Built tree → format.Look tree later → Built later

/-- Looking at the subtrees as elements of a sequence. -/
theorem sound_node_iff (children : Sequence Tree) :
    view.Sound (node children) ↔ (Sequence.view .list view.spanned).Sound children := by
  constructor
  · intro sound
    exact ⟨fun _ _ => trivial, (exact_node_iff children 0).mp sound.exact⟩
  · intro sound
    exact ⟨trivial, (exact_node_iff children 0).mpr sound.exact⟩

theorem sound_of_step {tree : Tree} {later : Sequence Tree} (sound : view.Sound tree)
    (step : Sequence.Step view.Sound tree.children later) : view.Sound (node later) := by
  obtain ⟨children⟩ := tree
  have elements : ∀ child, view.Sound child → view.spanned.Sound child :=
    fun _ sound => ⟨sound.valid, sound.exact⟩
  exact (sound_node_iff later).mpr
    (Sequence.sound_of_step elements step ((sound_node_iff children).mp sound))

theorem Built.sound {tree : Tree} (built : Built tree) : view.Sound tree := by
  have bare : view.Sound Tree.leaf := (sound_node_iff _).mpr Sequence.sound_empty
  induction built with
  | leaf => exact bare
  | ofList _ each => exact sound_of_step bare (.ofList each)
  | push _ _ tree child => exact sound_of_step tree (.push child)
  | append _ _ tree each => exact sound_of_step tree (.append each)
  | replace index _ _ tree child => exact sound_of_step tree (.replace index child)
  | clear _ tree => exact sound_of_step tree .clear
  | look _ look tree => exact (faithful.alike_of_look tree.valid look).sound tree

end Tree

end FieldWire
