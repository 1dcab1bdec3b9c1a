import InputLeap.Protocol.Writef

/-! What has been written by a format is read back by it, however the stream cuts its bytes. -/

namespace InputLeap.Protocol.ProtocolUtil

open InputLeap.Lib

def Width.digit : Width → Char
  | one => '1'
  | two => '2'
  | four => '4'

inductive Field
  | literal (c : Char)
  | int (w : Width) (v : UInt32)
  | list (w : Width) (entries : List (BitVec (8 * w.toNat)))
  | string (bytes : List UInt8)

namespace Field

def format : Field → List Char
  | literal c => [c]
  | int w _ => ['%', w.digit, 'i']
  | list w _ => ['%', w.digit, 'I']
  | string _ => ['%', 's']

def args : Field → List Arg
  | literal _ => []
  | int _ v => [.int v]
  | list w entries => [.list w entries]
  | string bytes => [.string (some bytes)]

def stored : Field → List Stored
  | literal _ => []
  | int w v => [.int (v.toNat % 256 ^ w.toNat)]
  | list _ entries => .list :: entries.map fun v => .entry v.toNat
  | string bytes => [.string bytes]

def Valid : Field → Prop
  | literal c => c ≠ '%'
  | int _ _ => True
  | list _ entries => entries.length ≤ maxListLength
  | string bytes => bytes.length ≤ maxStringLength

instance : (f : Field) → Decidable f.Valid
  | literal _ => inferInstanceAs (Decidable (_ ≠ _))
  | int _ _ => .isTrue trivial
  | list _ _ => inferInstanceAs (Decidable (_ ≤ _))
  | string _ => inferInstanceAs (Decidable (_ ≤ _))

def bytes : Field → List UInt8
  | literal c => [c.toUInt8]
  | int w v => BigEndian.encode w.toNat v.toNat
  | list w entries =>
    BigEndian.encode 4 entries.length ++ entries.flatMap fun v => BigEndian.encode w.toNat v.toNat
  | string bytes => BigEndian.encode 4 bytes.length ++ bytes

def item : Field → Item
  | literal c => .literal c
  | int w _ => .spec (.int w)
  | list w _ => .spec (.list w)
  | string _ => .spec .string

def directive : Field → Directive
  | literal c => .literal c
  | int w _ => .int w.toNat
  | list w _ => .list w.toNat
  | string _ => .string

variable {f : Field}

lemma parse_format (h : f.Valid) (fmt : List Char) :
    parse none (f.format ++ fmt) = (parse none fmt).map (f.item :: ·) := by
  cases f with
  | literal c => simp [format, parse, item, show c ≠ '%' from h]
  | int w v => cases w <;> rfl
  | list w entries => cases w <;> rfl
  | string bytes => rfl

lemma scan_format (h : f.Valid) (fmt : List Char) : scan none (f.format ++ fmt) = f.directive :: scan none fmt := by
  cases f with
  | literal c => simp [format, scan, directive, show c ≠ '%' from h]
  | int w v => cases w <;> rfl
  | list w entries => cases w <;> rfl
  | string bytes => rfl

lemma writeItems_field (h : f.Valid) (items : List Item) (args : List Arg) :
    writeItems (f.item :: items) (f.args ++ args) = (writeItems items args).map (f.bytes ++ ·) := by
  cases f with
  | literal c => rfl
  | int w v => rfl
  | list w entries =>
    have hlen : entries.length % 2 ^ 32 = entries.length := by
      have : entries.length ≤ maxListLength := h
      rw [maxListLength] at this
      omega
    have hwritten : (Kind.list w).written (.list w entries :: args) = some ((list w entries).bytes, args) := by
      simp only [Kind.written, Kind.stored, if_true, hlen, List.take_length]
      rfl
    rw [item, Field.args, List.singleton_append, writeItems, hwritten, Option.bind_some]
  | string src =>
    have hlen : src.length % 2 ^ 32 = src.length := by
      have : src.length ≤ maxStringLength := h
      rw [maxStringLength] at this
      omega
    have hwritten : Kind.string.written (.string (some src) :: args) = some ((string src).bytes, args) := by
      simp only [Kind.written, Kind.stored, Option.getD_some, hlen, List.take_length]
      rfl
    rw [item, Field.args, List.singleton_append, writeItems, hwritten, Option.bind_some]

lemma readEntries_steps (w : Width) (entries : List (BitVec (8 * w.toNat))) (next : Program) :
    Reader.Steps (readEntries w.toNat next entries.length)
      (entries.flatMap fun v => BigEndian.encode w.toNat v.toNat) (entries.map fun v => .entry v.toNat) next := by
  induction entries with
  | nil => exact .refl next
  | cons v entries ih =>
    have hv : v.toNat < 256 ^ w.toNat := by
      have := v.isLt
      rwa [pow_mul] at this
    rw [List.length_cons, List.flatMap_cons, List.map_cons]
    apply Reader.Steps.read _ (BigEndian.encode_length _ _)
    rw [BigEndian.decode_encode hv]
    exact .store ih

lemma steps (h : f.Valid) (next : Program) : Reader.Steps (readDirective next f.directive) f.bytes f.stored next := by
  cases f with
  | literal c =>
    apply Reader.Steps.read [c.toUInt8] rfl
    rw [if_pos rfl]
    exact .refl next
  | int w v =>
    rw [Field.bytes, ← List.append_nil (BigEndian.encode _ _)]
    apply Reader.Steps.read _ (BigEndian.encode_length _ _)
    rw [BigEndian.decode_encode_mod]
    exact .stored_one _ next
  | list w entries =>
    have hmax : entries.length ≤ maxListLength := h
    have hdecode : BigEndian.decode (BigEndian.encode 4 entries.length) = entries.length := by
      apply BigEndian.decode_encode
      rw [maxListLength] at hmax
      omega
    apply Reader.Steps.read _ (BigEndian.encode_length _ _)
    simp only [hdecode, if_neg (Nat.not_lt.mpr hmax)]
    exact .store (readEntries_steps w entries next)
  | string src =>
    have hmax : src.length ≤ maxStringLength := h
    have hdecode : BigEndian.decode (BigEndian.encode 4 src.length) = src.length := by
      apply BigEndian.decode_encode
      rw [maxStringLength] at hmax
      omega
    apply Reader.Steps.read _ (BigEndian.encode_length _ _)
    simp only [hdecode, if_neg (Nat.not_lt.mpr hmax)]
    have hread : Reader.Steps (.read src.length fun bytes => .store (.string bytes) next) (src ++ []) [.string src]
      next := .read src rfl (.stored_one _ next)
    rwa [List.append_nil] at hread

end Field

section Message

variable {fields : List Field}

lemma parse_fields (h : ∀ f ∈ fields, f.Valid) :
    parse none (fields.flatMap Field.format) = some (fields.map Field.item) := by
  induction fields with
  | nil => rfl
  | cons f fields ih =>
    rw [List.flatMap_cons, Field.parse_format (h f List.mem_cons_self),
      ih fun g hg => h g (List.mem_cons_of_mem f hg), Option.map_some, List.map_cons]

lemma writeItems_fields (h : ∀ f ∈ fields, f.Valid) :
    writeItems (fields.map Field.item) (fields.flatMap Field.args) = some (fields.flatMap Field.bytes) := by
  induction fields with
  | nil => rfl
  | cons f fields ih =>
    rw [List.map_cons, List.flatMap_cons, Field.writeItems_field (h f List.mem_cons_self),
      ih fun g hg => h g (List.mem_cons_of_mem f hg), Option.map_some, List.flatMap_cons]

lemma writefVoid_fields (h : ∀ f ∈ fields, f.Valid) :
    writefVoid (fields.flatMap Field.format) (fields.flatMap Field.args) = some (fields.flatMap Field.bytes) := by
  rw [writefVoid, parse_fields h, Option.bind_some, writeItems_fields h]

lemma vreadf_steps (h : ∀ f ∈ fields, f.Valid) :
    Reader.Steps (vreadf (fields.flatMap Field.format)) (fields.flatMap Field.bytes) (fields.flatMap Field.stored)
      .done := by
  induction fields with
  | nil => exact .refl .done
  | cons f fields ih =>
    have hf := h f List.mem_cons_self
    rw [vreadf, List.flatMap_cons, List.flatMap_cons, List.flatMap_cons, Field.scan_format hf, List.foldr_cons]
    exact (Field.steps hf _).trans (ih fun g hg => h g (List.mem_cons_of_mem f hg))

/-- Reading what was written gives the arguments back and leaves what follows. -/
theorem vreadf_writefVoid {σ : Type} [ByteSource σ] {S : List UInt8 → σ → Prop} (hS : Reader.Delivers S)
    (h : ∀ f ∈ fields, f.Valid) (tail : List UInt8) :
    ∃ bytes, writefVoid (fields.flatMap Field.format) (fields.flatMap Field.args) = some bytes ∧
      ∀ s, S (bytes ++ tail) s →
        ((vreadf (fields.flatMap Field.format)).run .endOfStream s).result = .ok () ∧
        ((vreadf (fields.flatMap Field.format)).run .endOfStream s).stored = fields.flatMap Field.stored ∧
        ((vreadf (fields.flatMap Field.format)).run .endOfStream s).consumed = bytes ∧
        S tail ((vreadf (fields.flatMap Field.format)).run .endOfStream s).source := by
  refine ⟨fields.flatMap Field.bytes, writefVoid_fields h, fun s hs => ?_⟩
  obtain ⟨t, ht, hrun⟩ := (vreadf_steps h).run hS ReadError.endOfStream hs
  rw [hrun]
  exact ⟨rfl, List.append_nil _, List.append_nil _, ht⟩

end Message

theorem vreadf_writefVoid_options :
    ((vreadf "DSOP%4I".toList).run .endOfStream
      (Pieces.mk [[68], [83, 79, 80, 0, 0], [0, 1, 0], [0, 1, 0], [9]])).stored = [.list, .entry 256] := by
  obtain ⟨bytes, hbytes, hread⟩ := vreadf_writefVoid Pieces.delivers
    (by decide : ∀ f ∈ [Field.literal 'D', .literal 'S', .literal 'O', .literal 'P', .list .four [256]], f.Valid) [9]
  obtain rfl : [68, 83, 79, 80, 0, 0, 0, 1, 0, 0, 1, 0] = bytes := by
    rw [← Option.some.injEq, ← hbytes]
    decide
  exact (hread _ ⟨rfl, by decide⟩).2.1

end InputLeap.Protocol.ProtocolUtil
