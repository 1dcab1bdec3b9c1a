import InputLeap.Protocol.ProtocolUtil

/-! Messages are written by format in two passes over the arguments. The first one counts the bytes for
the buffer that the second one fills. -/

namespace InputLeap.Protocol.ProtocolUtil

open InputLeap.Lib

inductive Width
  | one
  | two
  | four
  deriving DecidableEq

namespace Width

def toNat : Width → ℕ
  | one => 1
  | two => 2
  | four => 4

def ofNat? : ℕ → Option Width
  | 1 => some one
  | 2 => some two
  | 4 => some four
  | _ => none

end Width

/-- What `va_arg` takes. A pointer stands for the bytes that can be read from it, and a string may be null. -/
inductive Arg
  | int (value : UInt32)
  | list (w : Width) (entries : List (BitVec (8 * w.toNat)))
  | string (bytes : Option (List UInt8))
  | pointer (bytes : List UInt8)
  deriving DecidableEq

inductive Kind
  | int (w : Width)
  | list (w : Width)
  | string
  | pointer
  | percent
  deriving DecidableEq

def kind? (len : ℕ) (c : Char) : Option Kind :=
  if c = 'i' then (Width.ofNat? len).map .int
  else if c = 'I' then (Width.ofNat? len).map .list
  else if c = 's' ∧ len = 0 then some .string
  else if c = 'S' ∧ len = 0 then some .pointer
  else if c = '%' ∧ len = 0 then some .percent
  else none

inductive Item
  | literal (c : Char)
  | spec (k : Kind)
  deriving DecidableEq

/-- The items of a format, if no assertion fails. As in `scan`, the first argument is the length so far
within a specifier. -/
def parse : Option ℕ → List Char → Option (List Item)
  | none, [] => some []
  | some _, [] => none
  | none, c :: fmt => if c = '%' then parse (some 0) fmt else (parse none fmt).map (.literal c :: ·)
  | some len, c :: fmt =>
    if c.isDigit then parse (some ((10 * len + (c.toNat - 48)) % 2 ^ 32)) fmt
    else (kind? len c).bind fun k => (parse none fmt).map (.spec k :: ·)

namespace Kind

def writeCount : Kind → ℕ
  | int _ | list _ | string => 1
  | pointer => 2
  | percent => 0

/-- How many arguments `getLength` takes, which skips a pointer after a string too. -/
def lengthCount : Kind → ℕ
  | int _ | list _ => 1
  | string | pointer => 2
  | percent => 0

def stored : Kind → List Arg → Option (List UInt8)
  | int w, .int v :: _ => some (BigEndian.encode w.toNat v.toNat)
  | list w, .list w' entries :: _ =>
    let n := entries.length % 2 ^ 32
    if w = w' then
      some (BigEndian.encode 4 n ++ (entries.take n).flatMap fun v => BigEndian.encode w.toNat v.toNat)
    else none
  | string, .string src :: _ =>
    let n := (src.getD []).length % 2 ^ 32
    some (BigEndian.encode 4 n ++ (src.getD []).take n)
  | pointer, .int n :: .pointer src :: _ =>
    if n.toNat ≤ src.length then some (BigEndian.encode 4 n.toNat ++ src.take n.toNat) else none
  | percent, _ => some ['%'.toUInt8]
  | _, _ => none

def size : Kind → List Arg → Option ℕ
  | int w, .int _ :: _ => some w.toNat
  | list w, .list w' entries :: _ =>
    if w = w' then some ((4 + w.toNat * (entries.length % 2 ^ 32)) % 2 ^ 32) else none
  | string, .string (some src) :: _ => some ((4 + src.length % 2 ^ 32) % 2 ^ 32)
  | pointer, .int n :: _ => some ((4 + n.toNat) % 2 ^ 32)
  | percent, _ => some 1
  | _, _ => none

def written (k : Kind) (args : List Arg) : Option (List UInt8 × List Arg) :=
  (k.stored args).map fun bytes => (bytes, args.drop k.writeCount)

def length (k : Kind) (args : List Arg) : Option (ℕ × List Arg) :=
  (k.size args).map fun n => (n, args.drop k.lengthCount)

end Kind

def writeItems : List Item → List Arg → Option (List UInt8)
  | [], _ => some []
  | .literal c :: items, args => (writeItems items args).map (c.toUInt8 :: ·)
  | .spec k :: items, args => (k.written args).bind fun w => (writeItems items w.2).map (w.1 ++ ·)

def lengthItems : List Item → List Arg → Option ℕ
  | [], _ => some 0
  | .literal _ :: items, args => (lengthItems items args).map fun n => (1 + n) % 2 ^ 32
  | .spec k :: items, args => (k.length args).bind fun l => (lengthItems items l.2).map fun n => (l.1 + n) % 2 ^ 32

/-- The result is `none` if an assertion fails or an argument is not of the kind that is asked for. -/
def writefVoid (fmt : List Char) (args : List Arg) : Option (List UInt8) :=
  (parse none fmt).bind fun items => writeItems items args

def getLength (fmt : List Char) (args : List Arg) : Option ℕ :=
  (parse none fmt).bind fun items => lengthItems items args

/-- The bytes that are written to the stream. A buffer of the wrong size gives none. -/
def writef (fmt : List Char) (args : List Arg) : Option (List UInt8) :=
  (getLength fmt args).bind fun size =>
    if size = 0 then some []
    else (writefVoid fmt args).bind fun bytes => if bytes.length = size then some bytes else none

/-- The arguments that each specifier takes: the number of the first one, and how many there are. -/
def takes (count : Kind → ℕ) : ℕ → List Item → List (ℕ × ℕ)
  | _, [] => []
  | first, .literal _ :: items => takes count first items
  | first, .spec k :: items => (first, count k) :: takes count (first + count k) items

inductive Kind.Writes : Kind → List Arg → List UInt8 → List Arg → Prop
  | int (w : Width) (v : UInt32) (args : List Arg) :
      Writes (.int w) (.int v :: args) (BigEndian.encode w.toNat v.toNat) args
  | list (w : Width) (entries : List (BitVec (8 * w.toNat))) (args : List Arg) :
      Writes (.list w) (.list w entries :: args) (BigEndian.encode 4 (entries.length % 2 ^ 32) ++
        (entries.take (entries.length % 2 ^ 32)).flatMap fun v => BigEndian.encode w.toNat v.toNat) args
  | string (src : Option (List UInt8)) (args : List Arg) :
      Writes .string (.string src :: args) (BigEndian.encode 4 ((src.getD []).length % 2 ^ 32) ++
        (src.getD []).take ((src.getD []).length % 2 ^ 32)) args
  | pointer (n : UInt32) (src : List UInt8) (args : List Arg) (h : n.toNat ≤ src.length) :
      Writes .pointer (.int n :: .pointer src :: args) (BigEndian.encode 4 n.toNat ++ src.take n.toNat) args
  | percent (args : List Arg) : Writes .percent args ['%'.toUInt8] args

namespace Kind

variable {k : Kind} {args rest : List Arg} {bytes : List UInt8}

lemma writes_of_written (h : k.written args = some (bytes, rest)) : k.Writes args bytes rest := by
  obtain ⟨front, hstored, heq⟩ := Option.map_eq_some_iff.mp h
  obtain ⟨rfl, rfl⟩ := Prod.mk.inj heq
  rw [stored.eq_def] at hstored
  split at hstored
  · obtain rfl := Option.some.inj hstored
    exact .int _ _ _
  · dsimp only at hstored
    split_ifs at hstored with hw
    obtain rfl := Option.some.inj hstored
    subst hw
    exact .list _ _ _
  · obtain rfl := Option.some.inj hstored
    exact .string _ _
  · split_ifs at hstored with hn
    obtain rfl := Option.some.inj hstored
    exact .pointer _ _ _ hn
  · obtain rfl := Option.some.inj hstored
    exact .percent _
  · cases hstored

namespace Writes

lemma flatMap_encode_length {n : ℕ} {α : Type} (f : α → ℕ) (entries : List α) :
    (entries.flatMap fun v => BigEndian.encode n (f v)).length = n * entries.length := by
  induction entries with
  | nil => rfl
  | cons v entries ih =>
    rw [List.flatMap_cons, List.length_append, ih, BigEndian.encode_length, List.length_cons]
    ring

lemma rest_subset (h : k.Writes args bytes rest) : rest ⊆ args := by
  cases h with
  | percent => exact fun _ hmem => hmem
  | pointer => exact fun _ hmem => List.mem_cons_of_mem _ (List.mem_cons_of_mem _ hmem)
  | _ => exact fun _ hmem => List.mem_cons_of_mem _ hmem

lemma length_eq (h : k.Writes args bytes rest) (hk : k ≠ .string) (hlt : bytes.length < 2 ^ 32) :
    k.length args = some (bytes.length, rest) := by
  cases h with
  | int w v args =>
    rw [BigEndian.encode_length]
    rfl
  | list w entries args =>
    have hle : min (entries.length % 2 ^ 32) entries.length = entries.length % 2 ^ 32 :=
      min_eq_left (Nat.mod_le _ _)
    rw [List.length_append, flatMap_encode_length, BigEndian.encode_length, List.length_take, hle] at hlt ⊢
    have hsize : (Kind.list w).size (.list w entries :: rest) = some (4 + w.toNat * (entries.length % 2 ^ 32)) := by
      rw [size, if_pos rfl, Nat.mod_eq_of_lt hlt]
    rw [Kind.length, hsize]
    rfl
  | string src args => exact absurd rfl hk
  | pointer n src args hn =>
    rw [List.length_append, BigEndian.encode_length, List.length_take, min_eq_left hn] at hlt ⊢
    have hsize : Kind.pointer.size (.int n :: .pointer src :: rest) = some (4 + n.toNat) := by
      rw [size, Nat.mod_eq_of_lt hlt]
    rw [Kind.length, hsize]
    rfl
  | percent args => rfl

lemma string_length {src : List UInt8} (h : Kind.string.Writes (.string (some src) :: args) bytes rest)
    (hlt : bytes.length < 2 ^ 32) : Kind.string.length (.string (some src) :: args) = some (bytes.length, rest.drop 1) := by
  cases h with
  | string =>
    rw [List.length_append, BigEndian.encode_length, List.length_take, min_eq_left (Nat.mod_le _ _)] at hlt ⊢
    rw [Option.getD_some] at hlt ⊢
    have hsize : Kind.string.size (.string (some src) :: args) = some (4 + src.length % 2 ^ 32) := by
      rw [size, Nat.mod_eq_of_lt hlt]
    rw [Kind.length, hsize]
    rfl

end Writes

end Kind

def StringLast : List Item → Prop
  | [] => True
  | item :: items => (item = .spec .string → ∀ k, .spec k ∈ items → k = .percent) ∧ StringLast items

section Passes

variable {items : List Item} {args : List Arg} {bytes : List UInt8}

lemma stringLast_of_notMem (h : .spec .string ∉ items) : StringLast items := by
  induction items with
  | nil => trivial
  | cons item items ih =>
    rw [List.mem_cons, not_or] at h
    exact ⟨fun heq => absurd heq.symm h.1, ih h.2⟩

lemma writeItems_spec {k : Kind} (h : writeItems (.spec k :: items) args = some bytes) :
    ∃ front rest back, k.Writes args front rest ∧ writeItems items rest = some back ∧ bytes = front ++ back := by
  obtain ⟨⟨front, rest⟩, hk, h⟩ := Option.bind_eq_some_iff.mp h
  obtain ⟨back, hback, rfl⟩ := Option.map_eq_some_iff.mp h
  exact ⟨front, rest, back, Kind.writes_of_written hk, hback, rfl⟩

lemma lengthItems_literal {c : Char} {n : ℕ} (h : lengthItems items args = some n) (hlt : n + 1 < 2 ^ 32) :
    lengthItems (.literal c :: items) args = some (n + 1) := by
  rw [lengthItems, h, Option.map_some, Nat.add_comm 1, Nat.mod_eq_of_lt hlt]

lemma lengthItems_spec {k : Kind} {rest : List Arg} {m n : ℕ} (hk : k.length args = some (m, rest))
    (h : lengthItems items rest = some n) (hlt : m + n < 2 ^ 32) :
    lengthItems (.spec k :: items) args = some (m + n) := by
  rw [lengthItems, hk, Option.bind_some, h, Option.map_some, Nat.mod_eq_of_lt hlt]

lemma lengthItems_of_percent (hitems : ∀ k, .spec k ∈ items → k = .percent) (h : writeItems items args = some bytes)
    (hlt : bytes.length < 2 ^ 32) (args' : List Arg) : lengthItems items args' = some bytes.length := by
  induction items generalizing bytes with
  | nil =>
    obtain rfl : [] = bytes := Option.some.inj h
    rfl
  | cons item items ih =>
    have htail : ∀ k, .spec k ∈ items → k = .percent := fun k hk => hitems k (List.mem_cons_of_mem _ hk)
    cases item with
    | literal c =>
      obtain ⟨back, hback, rfl⟩ := Option.map_eq_some_iff.mp h
      rw [List.length_cons] at hlt ⊢
      exact lengthItems_literal (ih htail hback (by omega)) hlt
    | spec k =>
      obtain rfl := hitems k List.mem_cons_self
      obtain ⟨front, rest, back, hk, hback, rfl⟩ := writeItems_spec h
      cases hk
      rw [List.length_append] at hlt ⊢
      exact lengthItems_spec rfl (ih htail hback (by omega)) hlt

/-- What comes after a string takes no argument, so that the argument skipped behind it is missed by nobody. -/
lemma lengthItems_eq (h : writeItems items args = some bytes) (hlt : bytes.length < 2 ^ 32) (hlast : StringLast items)
    (hnull : .spec .string ∈ items → .string none ∉ args) : lengthItems items args = some bytes.length := by
  induction items generalizing args bytes with
  | nil =>
    obtain rfl : [] = bytes := Option.some.inj h
    rfl
  | cons item items ih =>
    cases item with
    | literal c =>
      obtain ⟨back, hback, rfl⟩ := Option.map_eq_some_iff.mp h
      rw [List.length_cons] at hlt ⊢
      exact lengthItems_literal (ih hback (by omega) hlast.2 fun hs => hnull (List.mem_cons_of_mem _ hs)) hlt
    | spec k =>
      obtain ⟨front, rest, back, hk, hback, rfl⟩ := writeItems_spec h
      rw [List.length_append] at hlt ⊢
      by_cases hstring : k = .string
      · subst hstring
        cases hk with
        | string src =>
          cases src with
          | none => exact absurd List.mem_cons_self (hnull List.mem_cons_self)
          | some src =>
            have hsize := (Kind.Writes.string (some src) rest).string_length (by omega)
            exact lengthItems_spec hsize (lengthItems_of_percent (hlast.1 rfl) hback (by omega) _) hlt
      · have hrest := ih hback (by omega) hlast.2 fun hs hmem =>
          hnull (List.mem_cons_of_mem _ hs) (hk.rest_subset hmem)
        exact lengthItems_spec (hk.length_eq hstring (by omega)) hrest hlt

lemma takes_eq_iff (first : ℕ) :
    takes Kind.lengthCount first items = takes Kind.writeCount first items ↔ .spec .string ∉ items := by
  induction items generalizing first with
  | nil => simp [takes]
  | cons item items ih =>
    cases item with
    | literal c => simpa [takes] using ih first
    | spec k =>
      rw [takes, takes, List.mem_cons, not_or, List.cons.injEq]
      by_cases hstring : k = .string
      · subst hstring
        simp [Kind.lengthCount, Kind.writeCount]
      · have hcount : k.lengthCount = k.writeCount := by
          cases k with
          | string => exact absurd rfl hstring
          | _ => rfl
        rw [hcount, ih]
        simp [Ne.symm hstring]

lemma writef_eq_some {fmt : List Char} (hlength : getLength fmt args = some bytes.length)
    (hwrite : writefVoid fmt args = some bytes) : writef fmt args = some bytes := by
  rw [writef, hlength, Option.bind_some]
  split_ifs with h0
  · rw [List.length_eq_zero_iff.mp h0]
  · simp [hwrite]

lemma getLength_written {fmt : List Char} (hparse : parse none fmt = some items)
    (hwrite : writefVoid fmt args = some bytes) (hlt : bytes.length < 2 ^ 32) (hlast : StringLast items)
    (hnull : .string none ∉ args) : getLength fmt args = some bytes.length := by
  rw [writefVoid, hparse, Option.bind_some] at hwrite
  rw [getLength, hparse, Option.bind_some]
  exact lengthItems_eq hwrite hlt hlast fun _ => hnull

/-- The size that is counted is what is written, and both passes take the same arguments for each specifier, exactly if
none of them is for a string. -/
theorem getLength_eq_written_iff {fmt : List Char} (hparse : parse none fmt = some items)
    (hwrite : writefVoid fmt args = some bytes) (hlt : bytes.length < 2 ^ 32) :
    (getLength fmt args = some bytes.length ∧ takes Kind.lengthCount 0 items = takes Kind.writeCount 0 items) ↔
      .spec .string ∉ items := by
  rw [takes_eq_iff]
  refine and_iff_right_of_imp fun hstring => ?_
  rw [writefVoid, hparse, Option.bind_some] at hwrite
  rw [getLength, hparse, Option.bind_some]
  exact lengthItems_eq hwrite hlt (stringLast_of_notMem hstring) fun hs => absurd hs hstring

end Passes

def kMsgDClipboard : List Char := "DCLP%1i%4i%1i%s".toList

theorem getLength_mouseMove : getLength "DMMV%2i%2i".toList [.int 3, .int 70000] = some 8 := by
  have hwrite : writefVoid "DMMV%2i%2i".toList [.int 3, .int 70000] = some [68, 77, 77, 86, 0, 3, 17, 112] := by decide
  have hparse : parse none "DMMV%2i%2i".toList = some ("DMMV".toList.map .literal ++ [.spec (.int .two), .spec (.int .two)]) :=
    by decide
  exact ((getLength_eq_written_iff hparse hwrite (by decide)).mpr (by decide)).1

theorem getLength_two_strings : ¬ ∀ fmt args bytes, writefVoid fmt args = some bytes → bytes.length < 2 ^ 32 →
    getLength fmt args = some bytes.length := by
  intro h
  have := h "%s%s".toList [.string (some [97]), .string (some [98, 99, 100])]
    [0, 0, 0, 1, 97, 0, 0, 0, 3, 98, 99, 100] (by decide) (by decide)
  revert this
  decide

end InputLeap.Protocol.ProtocolUtil
