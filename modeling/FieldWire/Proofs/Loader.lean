import FieldWire.ObjectFormat
import FieldWire.Proofs.Reader

/-!
# Loading objects

A loader is read like a reader that also moves an object.  `Fills` is for loaders what `Takes` is for
readers, and a format of objects that takes some bytes reads them from the front of any buffer.
-/

set_option autoImplicit false

namespace FieldWire

namespace Loader

variable {σ τ α β : Type}

theorem read_of_ok {reader : Reader α} {cursor after : Cursor} {value : α}
    (ran : reader cursor = .ok value after) (object : σ) :
    read reader (object, cursor) = .ok value (object, after) := by
  simp only [read, ran]

theorem read_of_error {reader : Reader α} {cursor after : Cursor} {error : CodecError}
    (failed : reader cursor = .error error after) (object : σ) :
    read reader (object, cursor) = .error error (object, after) := by
  simp only [read, failed]

theorem read_eq_ok {reader : Reader α} {object final : σ} {cursor after : Cursor} {value : α}
    (ran : read reader (object, cursor) = .ok value (final, after)) :
    final = object ∧ reader cursor = .ok value after := by
  rw [read] at ran
  split at ran
  · rename_i found moved readerRan
    cases ran
    exact ⟨rfl, readerRan⟩
  · cases ran

theorem read_eq_error {reader : Reader α} {object final : σ} {cursor after : Cursor}
    {error : CodecError} (failed : read reader (object, cursor) = .error error (final, after)) :
    final = object ∧ reader cursor = .error error after := by
  rw [read] at failed
  split at failed
  · cases failed
  · rename_i reason moved readerFailed
    cases failed
    exact ⟨rfl, readerFailed⟩

theorem update_apply (change : σ → σ) (object : σ) (cursor : Cursor) :
    update change (object, cursor) = .ok () (change object, cursor) := rfl

theorem update_ne_error (change : σ → σ) (state final : σ × Cursor) (error : CodecError) :
    update change state ≠ .error error final := by
  intro failed
  cases failed

theorem part_of_ok {get : σ → τ} {put : σ → τ → σ} {loader : Loader τ α} {object : σ} {inner : τ}
    {cursor after : Cursor} {value : α}
    (ran : loader (get object, cursor) = .ok value (inner, after)) :
    part get put loader (object, cursor) = .ok value (put object inner, after) := by
  simp only [part, ran]

theorem part_of_error {get : σ → τ} {put : σ → τ → σ} {loader : Loader τ α} {object : σ} {inner : τ}
    {cursor after : Cursor} {error : CodecError}
    (failed : loader (get object, cursor) = .error error (inner, after)) :
    part get put loader (object, cursor) = .error error (put object inner, after) := by
  simp only [part, failed]

theorem part_eq_ok {get : σ → τ} {put : σ → τ → σ} {loader : Loader τ α} {object final : σ}
    {cursor after : Cursor} {value : α}
    (ran : part get put loader (object, cursor) = .ok value (final, after)) :
    ∃ inner, final = put object inner ∧
      loader (get object, cursor) = .ok value (inner, after) := by
  rw [part] at ran
  split at ran
  · rename_i found inner moved loaderRan
    cases ran
    exact ⟨inner, rfl, loaderRan⟩
  · cases ran

theorem part_eq_error {get : σ → τ} {put : σ → τ → σ} {loader : Loader τ α} {object final : σ}
    {cursor after : Cursor} {error : CodecError}
    (failed : part get put loader (object, cursor) = .error error (final, after)) :
    ∃ inner, final = put object inner ∧
      loader (get object, cursor) = .error error (inner, after) := by
  rw [part] at failed
  split at failed
  · cases failed
  · rename_i reason inner moved loaderFailed
    cases failed
    exact ⟨inner, rfl, loaderFailed⟩

theorem toReader_of_ok {start final : σ} {loader : Loader σ Unit} {cursor after : Cursor}
    (ran : loader (start, cursor) = .ok () (final, after)) :
    toReader start loader cursor = .ok final after := by
  simp only [toReader, ran]

theorem toReader_of_error {start final : σ} {loader : Loader σ Unit} {cursor after : Cursor}
    {error : CodecError} (failed : loader (start, cursor) = .error error (final, after)) :
    toReader start loader cursor = .error error after := by
  simp only [toReader, failed]

theorem toReader_eq_ok {start final : σ} {loader : Loader σ Unit} {cursor after : Cursor}
    (ran : toReader start loader cursor = .ok final after) :
    loader (start, cursor) = .ok () (final, after) := by
  rw [toReader] at ran
  split at ran
  · rename_i result object moved loaderRan
    cases ran
    exact loaderRan
  · cases ran

theorem toReader_eq_error {start : σ} {loader : Loader σ Unit} {cursor after : Cursor}
    {error : CodecError} (failed : toReader start loader cursor = .error error after) :
    ∃ final, loader (start, cursor) = .error error (final, after) := by
  rw [toReader] at failed
  split at failed
  · cases failed
  · rename_i reason object moved loaderFailed
    cases failed
    exact ⟨object, loaderFailed⟩

/-! ## Loaders that only read -/

theorem read_bind (first : Reader α) (next : α → Reader β) :
    (read (first >>= next) : Loader σ β) = read first >>= fun value => read (next value) := by
  funext ⟨object, cursor⟩
  cases ran : first cursor with
  | ok value middle =>
    rw [bind_of_ok (read_of_ok ran object)]
    simp only [read, bind_of_ok ran]
  | error error middle =>
    rw [bind_of_error (read_of_error ran object)]
    exact read_of_error (bind_of_error ran) object

theorem read_pure (value : α) : (read (pure value) : Loader σ α) = pure value := rfl

theorem read_throw (error : CodecError) : (read (throw error) : Loader σ α) = throw error := rfl

theorem read_ite (condition : Prop) [Decidable condition] (first second : Reader α) :
    (read (if condition then first else second) : Loader σ α) =
      if condition then read first else read second := by
  split <;> rfl

theorem throw_bind (error : CodecError) (next : α → Loader σ β) :
    (throw error >>= next : Loader σ β) = throw error := rfl

/-! ## Loaders of different objects -/

/-- How a loader ends, seen through a view of its object. -/
def through (view : σ → τ) :
    EStateM.Result CodecError (σ × Cursor) α → EStateM.Result CodecError (τ × Cursor) α
  | .ok value (object, cursor) => .ok value (view object, cursor)
  | .error error (object, cursor) => .error error (view object, cursor)

/-- The second loader does with the view of an object what the first does with the object. -/
def Along (view : σ → τ) (first : Loader σ α) (second : Loader τ α) : Prop :=
  ∀ object cursor, second (view object, cursor) = through view (first (object, cursor))

theorem along_read (view : σ → τ) (reader : Reader α) :
    Along view (read reader) (read reader) := by
  intro object cursor
  cases ran : reader cursor with
  | ok value after => rw [read_of_ok ran, read_of_ok ran, through]
  | error error after => rw [read_of_error ran, read_of_error ran, through]

theorem along_throw (view : σ → τ) (error : CodecError) :
    Along view (throw error : Loader σ α) (throw error) := fun _ _ => rfl

theorem along_update {view : σ → τ} {change : σ → σ} {image : τ → τ}
    (same : ∀ object, image (view object) = view (change object)) :
    Along view (update change) (update image) := by
  intro object cursor
  rw [update_apply, update_apply, same, through]

theorem Along.bind {view : σ → τ} {first : Loader σ α} {second : Loader τ α}
    {next : α → Loader σ β} {later : α → Loader τ β} (before : Along view first second)
    (after : ∀ value, Along view (next value) (later value)) :
    Along view (first >>= next) (second >>= later) := by
  intro object cursor
  have ran := before object cursor
  cases found : first (object, cursor) with
  | ok value state =>
    rw [found, through] at ran
    rw [bind_of_ok found, bind_of_ok ran]
    exact after value state.1 state.2
  | error error state =>
    rw [found, through] at ran
    rw [bind_of_error found, bind_of_error ran, through]

/-! ## What a loader takes -/

/-- From `start` the loader gives `value` and `final` out of some bytes, whatever follows, and stops
right after them. -/
def Fills (loader : Loader σ α) (limit : Nat) (bytes : Bytes) (start : σ) (value : α) (final : σ) :
    Prop :=
  ∀ (tail : Bytes) (pos : Nat), loader (start, ⟨bytes ++ tail, pos, limit⟩) =
    .ok value (final, ⟨tail, pos + bytes.length, limit⟩)

theorem Fills.read {reader : Reader α} {limit : Nat} {bytes : Bytes} {value : α}
    (taken : Reader.Takes reader limit bytes value) (object : σ) :
    Fills (Loader.read reader) limit bytes object value object := by
  intro tail pos
  exact read_of_ok (taken tail pos) object

theorem Fills.update (limit : Nat) (change : σ → σ) (object : σ) :
    Fills (Loader.update change) limit [] object () (change object) := by
  intro tail pos
  rfl

theorem Fills.bind {first : Loader σ α} {next : α → Loader σ β} {limit : Nat} {front back : Bytes}
    {start middle final : σ} {value : α} {result : β}
    (filled : Fills first limit front start value middle)
    (more : Fills (next value) limit back middle result final) :
    Fills (first >>= next) limit (front ++ back) start result final := by
  intro tail pos
  rw [List.append_assoc, bind_of_ok (filled (back ++ tail) pos), more tail _, List.length_append,
    Nat.add_assoc]

/-- A first step that reads and a last one that stores what was read. -/
theorem Fills.store {reader : Reader α} {change : α → σ → σ} {limit : Nat} {bytes : Bytes}
    {value : α} (taken : Reader.Takes reader limit bytes value) (object : σ) :
    Fills (do
      let found ← Loader.read reader
      Loader.update (change found)) limit bytes object () (change value object) := by
  intro tail pos
  rw [bind_of_ok (read_of_ok (taken tail pos) object)]
  rfl

end Loader

namespace ObjectFormat

variable {σ : Type}

theorem load_of_read {format : ObjectFormat σ} {object : σ} {cursor after : Cursor}
    (ran : format.read cursor = .ok object after) :
    format.load (format.empty, cursor) = .ok () (object, after) :=
  Loader.toReader_eq_ok ran

/-- What a reader gives is read from the front of a buffer, up to its end and no further. -/
theorem loadFrom_of_gives {format : ObjectFormat σ} {limit : Nat} {bytes : Bytes} {P : σ → Prop}
    (gives : Reader.Gives format.read limit bytes P) (tail : Bytes) :
    ∃ object, format.loadFrom limit (bytes ++ tail) format.empty = (.ok (), object, bytes.length) ∧
      P object := by
  obtain ⟨object, taken, holds⟩ := gives tail 0
  refine ⟨object, ?_, holds⟩
  rw [loadFrom, Cursor.ofBytes, load_of_read taken]
  simp

theorem loadFrom_of_recovers {γ : Type} {format : ObjectFormat σ} {limit : Nat} {bytes : Bytes}
    {contents : σ → γ} {expected : γ}
    (recovers : Reader.Recovers format.read limit bytes contents expected) (tail : Bytes) :
    ∃ object, format.loadFrom limit (bytes ++ tail) format.empty = (.ok (), object, bytes.length) ∧
      contents object = expected :=
  loadFrom_of_gives recovers tail

theorem deserializeWithin_of_ok {format : ObjectFormat σ} {limit : Nat} {bytes : Bytes}
    {object : σ} {after : Cursor} (ran : format.read (Cursor.ofBytes bytes limit) = .ok object after)
    (finished : after.rest = []) : format.deserializeWithin limit bytes = .ok object := by
  obtain ⟨rest, pos, bound⟩ := after
  obtain rfl : rest = [] := finished
  have whole : (do
      let object ← format.read
      Reader.finish
      return object : Reader σ) (Cursor.ofBytes bytes limit) = .ok object ⟨[], pos, bound⟩ := by
    rw [bind_of_ok ran]
    rfl
  simp only [deserializeWithin, whole]

theorem deserializeWithin_of_takes {format : ObjectFormat σ} {limit : Nat} {bytes : Bytes}
    {object : σ} (taken : Reader.Takes format.read limit bytes object) :
    format.deserializeWithin limit bytes = .ok object := by
  have ran := taken [] 0
  rw [List.append_nil] at ran
  exact deserializeWithin_of_ok ran rfl

theorem deserializeWithin_of_gives {format : ObjectFormat σ} {limit : Nat} {bytes : Bytes}
    {P : σ → Prop} (gives : Reader.Gives format.read limit bytes P) :
    ∃ object, format.deserializeWithin limit bytes = .ok object ∧ P object := by
  obtain ⟨object, taken, holds⟩ := gives [] 0
  rw [List.append_nil] at taken
  exact ⟨object, deserializeWithin_of_ok taken rfl, holds⟩

theorem deserializeWithin_of_recovers {γ : Type} {format : ObjectFormat σ} {limit : Nat}
    {bytes : Bytes} {contents : σ → γ} {expected : γ}
    (recovers : Reader.Recovers format.read limit bytes contents expected) :
    ∃ object, format.deserializeWithin limit bytes = .ok object ∧ contents object = expected :=
  deserializeWithin_of_gives recovers

theorem deserializeWithin_of_error {format : ObjectFormat σ} {limit : Nat} {bytes : Bytes}
    {cursor : Cursor} {error : CodecError}
    (failed : format.read (Cursor.ofBytes bytes limit) = .error error cursor) :
    format.deserializeWithin limit bytes = .error error := by
  have whole : (do
      let object ← format.read
      Reader.finish
      return object : Reader σ) (Cursor.ofBytes bytes limit) = .error error _ :=
    bind_of_error failed
  simp only [deserializeWithin, whole]

/-- Loading begins with the span of the body, and if that cannot be opened nothing else is done. -/
def OpensSpan (format : ObjectFormat σ) : Prop :=
  ∀ object cursor error after, Reader.openSpan cursor = .error error after →
    format.load (object, cursor) = .error error (object, after)

theorem opensSpan_of_load {format : ObjectFormat σ} {next : Nat → Loader σ Unit}
    (load : format.load = Loader.read Reader.openSpan >>= next) : format.OpensSpan := by
  intro object cursor error after failed
  rw [load, bind_of_error (Loader.read_of_error failed object)]

/-- An envelope that declares more than there is. -/
theorem OpensSpan.deserializeWithin_of_lt {format : ObjectFormat σ} (opens : format.OpensSpan)
    {limit declared : Nat} {rest : Bytes} (within : declared ≤ limit) (fits : declared < 2 ^ 62)
    (short : rest.length < declared) :
    format.deserializeWithin limit (Write.word (LengthTag.span declared) ++ rest) =
      .error (.bufferUnderrun declared rest.length) := by
  exact deserializeWithin_of_error
    (Loader.toReader_of_error (opens _ _ _ _ (Reader.openSpan_of_lt within fits short)))

theorem OpensSpan.deserialize_of_lt {format : ObjectFormat σ} (opens : format.OpensSpan)
    {declared : Nat} {rest : Bytes} (within : declared ≤ defaultPayloadLimit)
    (short : rest.length < declared) :
    format.deserialize (Write.word (LengthTag.span declared) ++ rest) =
      .error (.bufferUnderrun declared rest.length) :=
  opens.deserializeWithin_of_lt within (lt_of_le_default within (Nat.le_refl _)) short

theorem read_of_deserializeWithin {format : ObjectFormat σ} {limit : Nat} {bytes : Bytes}
    {object : σ} (accepted : format.deserializeWithin limit bytes = .ok object) :
    ∃ after, format.read (Cursor.ofBytes bytes limit) = .ok object after ∧ after.rest = [] := by
  rw [deserializeWithin] at accepted
  split at accepted
  · rename_i found last ran
    cases accepted
    obtain ⟨read, middle, readRan, ran⟩ := (bind_eq_ok_iff _ _ _ _ _).mp ran
    obtain ⟨_, final, finished, returned⟩ := (bind_eq_ok_iff _ _ _ _ _).mp ran
    obtain ⟨rfl, rfl⟩ := (pure_eq_ok_iff _ _ _ _).mp returned
    exact ⟨middle, readRan, (Reader.finish_eq_ok finished).1⟩
  · cases accepted

theorem read_of_deserialize {format : ObjectFormat σ} {bytes : Bytes} {object : σ}
    (accepted : format.deserialize bytes = .ok object) :
    ∃ after, format.read (Cursor.ofBytes bytes defaultPayloadLimit) = .ok object after ∧
      after.rest = [] :=
  read_of_deserializeWithin accepted

end ObjectFormat

end FieldWire
