import InputLeap.Lib.Lines
import InputLeap.Lib.Text

/-! The file of the fingerprints that are trusted, and how one is added to it and taken out of it. -/

namespace InputLeap.Net

open InputLeap.Lib InputLeap.Lib.Lines InputLeap.Lib.Text

structure FingerprintData where
  algorithm : Chars
  data : List UInt8
  deriving DecidableEq

namespace FingerprintData

def valid (f : FingerprintData) : Bool := f.algorithm ≠ []

def invalid : FingerprintData := ⟨[], []⟩

def sha1 (data : List UInt8) : FingerprintData := ⟨"sha1".toList, data⟩

def sha256 (data : List UInt8) : FingerprintData := ⟨"sha256".toList, data⟩

end FingerprintData

open FingerprintData

section Hex

def hexToNumber (ch : Char) : Option ℕ := if isDigitOf 16 ch then digitValue ch else none

def toHex (subject : List UInt8) : Chars := subject.flatMap fun b => formatHex 2 b.toNat

/-- `none` where it is unclear how to interpret the text. -/
def fromHexFrom (result : List UInt8) : Chars → Option (List UInt8)
  | [] => some result
  | [ch] => if ch = ':' then some result else none
  | ch :: ch' :: s =>
    if ch = ':' then fromHexFrom result (ch' :: s)
    else
      match hexToNumber ch, hexToNumber ch' with
      | some high, some low => fromHexFrom (result ++ [.ofNat (high * 16 + low)]) s
      | _, _ => none

def fromHex (data : Chars) : List UInt8 := (fromHexFrom [] data).getD []

end Hex

namespace FingerprintDatabase

def parseDbLine (line : Chars) : FingerprintData :=
  -- legacy v1 certificates
  if line.count ':' = 19 ∧ line.length = 40 + 19 then
    if fromHex line = [] then invalid else sha1 (fromHex line)
  else
    match firstLine ':' line with
    | none => invalid
    | some (version, rest) =>
      if version ≠ "v2".toList then invalid
      else
        match firstLine ':' rest with
        | none => invalid
        | some (algorithm, data) => if fromHex data = [] then invalid else ⟨algorithm, fromHex data⟩

def toDbLine (f : FingerprintData) : Chars := "v2:".toList ++ f.algorithm ++ [':'] ++ toHex f.data

def readStream (fingerprints : List FingerprintData) (stream : Chars) : List FingerprintData :=
  (getlines [] stream).foldl
    (fun fingerprints line =>
      if line = [] then fingerprints
      else if (parseDbLine line).valid then fingerprints ++ [parseDbLine line]
      else fingerprints)
    fingerprints

def writeStream (fingerprints : List FingerprintData) : Chars := fingerprints.flatMap fun f => toDbLine f ++ ['\n']

def isTrusted (fingerprints : List FingerprintData) (f : FingerprintData) : Bool := decide (f ∈ fingerprints)

def addTrusted (fingerprints : List FingerprintData) (f : FingerprintData) : List FingerprintData :=
  if isTrusted fingerprints f then fingerprints else fingerprints ++ [f]

/-- A file that is not there is read as an empty one. -/
def read (file : Option Chars) : List FingerprintData := readStream [] (file.getD [])

end FingerprintDatabase

open FingerprintDatabase

namespace TlsIdentity

def isTrusted (file : Option Chars) (f : FingerprintData) : Bool :=
  match file with
  | none => false
  | some stream => FingerprintDatabase.isTrusted (read (some stream)) f

def trust (file : Option Chars) (data : List UInt8) : Chars := writeStream (addTrusted (read file) (sha256 data))

def forget (file : Option Chars) (data : List UInt8) : Option Chars :=
  match file with
  | none => none
  | some stream =>
    some (writeStream ((read (some stream)).foldl
      (fun kept f =>
        if ¬(f.algorithm = (sha256 data).algorithm ∧ f.data = (sha256 data).data) then addTrusted kept f else kept)
      []))

end TlsIdentity

section Codec

variable {c d : Char}

lemma hexToNumber_of_isDigitOf (h : isDigitOf 16 c = true) : hexToNumber c = some ((digitValue c).getD 0) := by
  rw [hexToNumber, if_pos h]
  rw [isDigitOf] at h
  cases hvalue : digitValue c with
  | none => simp [hvalue] at h
  | some n => rfl

lemma fromHexFrom_pair (hc : isDigitOf 16 c = true) (hd : isDigitOf 16 d = true) (result : List UInt8) (s : Chars) :
    fromHexFrom result (c :: d :: s) = fromHexFrom (result ++ [.ofNat (digitsValue 16 [c, d])]) s := by
  have hne : c ≠ ':' := by
    rintro rfl
    exact absurd hc (by decide)
  rw [fromHexFrom, if_neg hne, hexToNumber_of_isDigitOf hc, hexToNumber_of_isDigitOf hd]
  simp [digitsValue, Nat.mul_comm]

lemma fromHexFrom_byte (b : UInt8) (result : List UInt8) (s : Chars) :
    fromHexFrom result (formatHex 2 b.toNat ++ s) = fromHexFrom (result ++ [b]) s := by
  obtain ⟨c, d, hcd⟩ := List.length_eq_two.mp ((length_formatHex (by decide)).mpr b.toNat_lt)
  obtain ⟨-, hdigits⟩ := formatHex_chars 2 b.toNat
  rw [hcd] at hdigits
  have hvalue : digitsValue 16 [c, d] = b.toNat := by rw [← hcd, digitsValue_formatHex]
  rw [hcd, List.cons_append, List.cons_append, List.nil_append,
    fromHexFrom_pair (hdigits c (by simp)) (hdigits d (by simp)), hvalue, UInt8.ofNat_toNat]

lemma fromHexFrom_toHex (data result : List UInt8) : fromHexFrom result (toHex data) = some (result ++ data) := by
  induction data generalizing result with
  | nil => simp [toHex, fromHexFrom]
  | cons b data ih =>
    rw [toHex, List.flatMap_cons, fromHexFrom_byte, ← toHex, ih, List.append_assoc, List.singleton_append]

lemma fromHex_toHex (data : List UInt8) : fromHex (toHex data) = data := by
  rw [fromHex, fromHexFrom_toHex, Option.getD_some, List.nil_append]

lemma isDigitOf_toHex {data : List UInt8} (h : c ∈ toHex data) : isDigitOf 16 c = true := by
  obtain ⟨b, -, hc⟩ := List.mem_flatMap.mp h
  exact (formatHex_chars 2 b.toNat).2 c hc

end Codec

namespace FingerprintData

structure Storable (f : FingerprintData) : Prop where
  valid : f.algorithm ≠ []
  colon : ':' ∉ f.algorithm
  newline : '\n' ∉ f.algorithm
  data : f.data ≠ []

lemma sha256_storable {data : List UInt8} (h : data ≠ []) : (sha256 data).Storable :=
  ⟨show "sha256".toList ≠ [] by decide, show ':' ∉ "sha256".toList by decide, show '\n' ∉ "sha256".toList by decide, h⟩

lemma sha1_storable {data : List UInt8} (h : data ≠ []) : (sha1 data).Storable :=
  ⟨show "sha1".toList ≠ [] by decide, show ':' ∉ "sha1".toList by decide, show '\n' ∉ "sha1".toList by decide, h⟩

end FingerprintData

section Lines

variable {f : FingerprintData} {line part s : Chars} {fs : List FingerprintData}

lemma newline_of_getlines (hpart : '\n' ∉ part) (h : line ∈ getlines part s) : '\n' ∉ line := by
  induction s generalizing part with
  | nil =>
    rw [getlines] at h
    split_ifs at h
    · exact absurd h List.not_mem_nil
    · rwa [List.mem_singleton.mp h]
  | cons c s ih =>
    rw [getlines] at h
    split_ifs at h with hc
    · rcases List.mem_cons.mp h with rfl | h
      · exact hpart
      · exact ih List.not_mem_nil h
    · exact ih (by simp [hpart, Ne.symm hc]) h

lemma parseDbLine_storable (hline : '\n' ∉ line) (h : (parseDbLine line).valid = true) : (parseDbLine line).Storable := by
  rw [parseDbLine] at h ⊢
  split_ifs at h ⊢ with hlegacy hdata
  · exact absurd h Bool.false_ne_true
  · exact sha1_storable hdata
  cases hversion : firstLine ':' line with
  | none => simp [hversion, FingerprintData.valid, invalid] at h
  | some cut =>
    obtain ⟨version, rest⟩ := cut
    simp only [hversion] at h ⊢
    split_ifs at h ⊢
    · exact absurd h Bool.false_ne_true
    cases halgorithm : firstLine ':' rest with
    | none => simp [halgorithm, FingerprintData.valid, invalid] at h
    | some cut =>
      obtain ⟨algorithm, data⟩ := cut
      simp only [halgorithm] at h ⊢
      split_ifs at h ⊢ with hdata
      · exact absurd h Bool.false_ne_true
      obtain ⟨rfl, -⟩ := firstLine_eq_some hversion
      obtain ⟨rfl, hcolon⟩ := firstLine_eq_some halgorithm
      exact ⟨of_decide_eq_true h, hcolon, fun hmem => hline (by simp [hmem]), hdata⟩

lemma not_mem_toHex {c : Char} (hc : isDigitOf 16 c = false) (data : List UInt8) : c ∉ toHex data := by
  intro hmem
  rw [isDigitOf_toHex hmem] at hc
  exact Bool.noConfusion hc

/-- Not by the equation of the definition, for which the literal is evaluated. -/
lemma toDbLine_eq (f : FingerprintData) : toDbLine f = "v2:".toList ++ f.algorithm ++ [':'] ++ toHex f.data := by
  delta toDbLine
  rfl

lemma count_colon_toDbLine (h : f.Storable) : (toDbLine f).count ':' = 2 := by
  have hhex : (toHex f.data).count ':' = 0 := List.count_eq_zero_of_not_mem (not_mem_toHex (by decide) f.data)
  simp [toDbLine_eq, List.count_eq_zero_of_not_mem h.colon, hhex]

lemma parseDbLine_toDbLine (h : f.Storable) : parseDbLine (toDbLine f) = f := by
  have htext : toDbLine f = "v2".toList ++ ':' :: (f.algorithm ++ ':' :: toHex f.data) := by simp [toDbLine_eq]
  have hlegacy : ¬((toDbLine f).count ':' = 19 ∧ (toDbLine f).length = 40 + 19) := by
    rw [count_colon_toDbLine h]
    exact fun hlegacy => absurd hlegacy.1 (by decide)
  rw [parseDbLine, if_neg hlegacy, htext, firstLine_append_line (by decide)]
  dsimp only
  rw [if_neg (not_not.mpr rfl), firstLine_append_line h.colon]
  dsimp only
  rw [fromHex_toHex, if_neg h.data]

lemma newline_toDbLine (h : f.Storable) : '\n' ∉ toDbLine f := by
  simp only [toDbLine_eq, List.mem_append, not_or]
  exact ⟨⟨⟨by decide, h.newline⟩, by decide⟩, not_mem_toHex (by decide) f.data⟩

lemma readStream_eq (fs : List FingerprintData) (s : Chars) :
    readStream fs s = fs ++ ((getlines [] s).map parseDbLine).filter FingerprintData.valid := by
  rw [readStream]
  induction getlines [] s generalizing fs with
  | nil => simp
  | cons line lines ih =>
    rw [List.foldl_cons, ih, List.map_cons, List.filter_cons]
    split_ifs with hline hvalid hvalid
    · subst hline
      exact absurd hvalid (by decide)
    · rfl
    · simp
    · rfl

lemma read_storable (file : Option Chars) : ∀ f ∈ read file, f.Storable := by
  intro f hf
  rw [FingerprintDatabase.read, readStream_eq, List.nil_append, List.mem_filter, List.mem_map] at hf
  obtain ⟨⟨line, hline, rfl⟩, hvalid⟩ := hf
  exact parseDbLine_storable (newline_of_getlines List.not_mem_nil hline) hvalid

lemma read_writeStream (h : ∀ f ∈ fs, f.Storable) : read (some (writeStream fs)) = fs := by
  have hlines : writeStream fs = unlines (fs.map toDbLine) := by rw [unlines, List.flatMap_map, writeStream]
  have hparse : (fs.map toDbLine).map parseDbLine = fs := by
    rw [List.map_map]
    exact (List.map_congr_left fun f hf => parseDbLine_toDbLine (h f hf)).trans (List.map_id fs)
  rw [FingerprintDatabase.read, Option.getD_some, readStream_eq, hlines, getlines_unlines, hparse, List.nil_append, List.filter_eq_self]
  · exact fun f hf => decide_eq_true (h f hf).valid
  · intro line hline
    obtain ⟨f, hf, rfl⟩ := List.mem_map.mp hline
    exact newline_toDbLine (h f hf)

end Lines

section Trust

variable {fs : List FingerprintData} {f g : FingerprintData}

lemma mem_addTrusted : g ∈ addTrusted fs f ↔ g ∈ fs ∨ g = f := by
  rw [addTrusted, FingerprintDatabase.isTrusted]
  split_ifs with h
  · constructor
    · exact .inl
    · rintro (hg | rfl)
      · exact hg
      · exact of_decide_eq_true h
  · rw [List.mem_append, List.mem_singleton]

lemma mem_foldl_kept (kept : List FingerprintData) :
    g ∈ fs.foldl (fun kept e => if ¬(e.algorithm = f.algorithm ∧ e.data = f.data) then addTrusted kept e else kept) kept ↔
      g ∈ kept ∨ g ∈ fs ∧ g ≠ f := by
  induction fs generalizing kept with
  | nil => simp
  | cons e fs ih =>
    have hsame : e.algorithm = f.algorithm ∧ e.data = f.data ↔ e = f := by
      cases e
      cases f
      simp
    rw [List.foldl_cons, ih, List.mem_cons]
    by_cases he : e = f
    · rw [if_neg (not_not.mpr (hsame.mpr he))]
      grind
    · rw [if_pos (hsame.not.mpr he), mem_addTrusted]
      grind

variable (file : Option Chars) {data : List UInt8}

lemma isTrusted_iff : TlsIdentity.isTrusted file g = true ↔ g ∈ read file := by
  cases file with
  | none => exact iff_of_false Bool.false_ne_true List.not_mem_nil
  | some stream => exact decide_eq_true_iff

lemma isTrusted_trust (hdata : data ≠ []) (g : FingerprintData) :
    TlsIdentity.isTrusted (some (TlsIdentity.trust file data)) g = true ↔
      TlsIdentity.isTrusted file g = true ∨ g = sha256 data := by
  have hstorable : ∀ f ∈ addTrusted (read file) (sha256 data), f.Storable := by
    intro f hf
    rcases mem_addTrusted.mp hf with hf | rfl
    · exact read_storable file f hf
    · exact sha256_storable hdata
  rw [isTrusted_iff, isTrusted_iff, TlsIdentity.trust, read_writeStream hstorable, mem_addTrusted]

lemma isTrusted_forget {after : Chars} (h : TlsIdentity.forget file data = some after) (g : FingerprintData) :
    TlsIdentity.isTrusted (some after) g = true ↔ TlsIdentity.isTrusted file g = true ∧ g ≠ sha256 data := by
  cases file with
  | none => cases h
  | some stream =>
    obtain rfl := Option.some.inj h
    have hkept (f : FingerprintData) := @mem_foldl_kept (read (some stream)) (sha256 data) f []
    simp only [List.not_mem_nil, false_or] at hkept
    rw [isTrusted_iff, isTrusted_iff, read_writeStream, hkept]
    intro f hf
    exact read_storable (some stream) f ((hkept f).mp hf).1

/-- Trusting adds one fingerprint and forgetting takes one out, whatever the file holds. -/
theorem trust_changes_one (hdata : data ≠ []) (g : FingerprintData) :
    (TlsIdentity.isTrusted (some (TlsIdentity.trust file data)) g = true ↔
        TlsIdentity.isTrusted file g = true ∨ g = sha256 data) ∧
      ∀ after, TlsIdentity.forget file data = some after →
        (TlsIdentity.isTrusted (some after) g = true ↔ TlsIdentity.isTrusted file g = true ∧ g ≠ sha256 data) :=
  ⟨isTrusted_trust file hdata g, fun _ h => isTrusted_forget file h g⟩

def laptopFile : Chars := "v2:sha1:0aFf\n\nnothing\n".toList

theorem trust_changes_one_laptop :
    (TlsIdentity.isTrusted (some (TlsIdentity.trust (some laptopFile) [1, 2])) (sha1 [10, 255]) = true ∧
      TlsIdentity.isTrusted (some (TlsIdentity.trust (some laptopFile) [1, 2])) (sha256 [3]) = false) ∧
    ∃ after, TlsIdentity.forget (some (TlsIdentity.trust (some laptopFile) [1, 2])) [1, 2] = some after ∧
      TlsIdentity.isTrusted (some after) (sha1 [10, 255]) = true ∧ TlsIdentity.isTrusted (some after) (sha256 [1, 2]) = false := by
  have hdata : ([1, 2] : List UInt8) ≠ [] := by decide
  have hold : TlsIdentity.isTrusted (some laptopFile) (sha1 [10, 255]) = true := by decide
  have hother : TlsIdentity.isTrusted (some laptopFile) (sha256 [3]) = false := by decide
  have htrust := fun g => (trust_changes_one (some laptopFile) hdata g).1
  have hforget := fun g => (trust_changes_one (some (TlsIdentity.trust (some laptopFile) [1, 2])) hdata g).2 _ rfl
  have hkept := (htrust (sha1 [10, 255])).mpr (.inl hold)
  refine ⟨⟨hkept, ?_⟩, _, rfl, (hforget _).mpr ⟨hkept, by decide⟩, ?_⟩
  · rw [← Bool.not_eq_true, htrust, hother]
    decide
  · rw [← Bool.not_eq_true, hforget]
    exact fun h => h.2 rfl

end Trust

end InputLeap.Net
