import InputLeap.Protocol.DragInformation

/-! Bitmaps on the clipboards of X11 and macOS are files, which have a header in front of what the
other computers get. -/

namespace InputLeap.Platform

open InputLeap.Protocol.DragInformation (substr)

section LittleEndian

def storeLittleEndianU16 (src : UInt16) : List UInt8 := [(src &&& 0xff).toUInt8, ((src >>> 8) &&& 0xff).toUInt8]

def storeLittleEndianU32 (src : UInt32) : List UInt8 :=
  [(src &&& 0xff).toUInt8, ((src >>> 8) &&& 0xff).toUInt8, ((src >>> 16) &&& 0xff).toUInt8, ((src >>> 24) &&& 0xff).toUInt8]

def loadLittleEndianU32 (data : List UInt8) : UInt32 :=
  (data.getD 0 0).toUInt32 ||| ((data.getD 1 0).toUInt32 <<< 8) ||| ((data.getD 2 0).toUInt32 <<< 16) |||
    ((data.getD 3 0).toUInt32 <<< 24)

end LittleEndian

namespace BMPConverter

def letterB : UInt8 := 66
def letterM : UInt8 := 77

def fileHeader (bmp : List UInt8) : List UInt8 :=
  [letterB, letterM] ++ storeLittleEndianU32 (.ofNat (14 + bmp.length)) ++ storeLittleEndianU16 0 ++
    storeLittleEndianU16 0 ++ storeLittleEndianU32 (14 + 40)

def imageOffset (bmp : List UInt8) : ℕ := (loadLittleEndianU32 (bmp.drop 10)).toNat

/-- `none` where `substr` throws. -/
def toDIB (bmp : List UInt8) : Option (List UInt8) :=
  if bmp.length ≤ 14 + 40 then some []
  else if bmp.getD 0 0 ≠ letterB ∨ bmp.getD 1 0 ≠ letterM then some []
  else if imageOffset bmp = 14 + 40 then substr bmp 14 (bmp.length - 14)
  else
    (substr bmp 14 40).bind fun header =>
      (substr bmp (imageOffset bmp) (bmp.length - imageOffset bmp)).map fun pixels => header ++ pixels

end BMPConverter

open BMPConverter

namespace XWindowsClipboardBMPConverter

def fromIClipboard (bmp : List UInt8) : List UInt8 := if bmp = [] then [] else fileHeader bmp ++ bmp

def toIClipboard (bmp : List UInt8) : Option (List UInt8) := if bmp = [] then some [] else toDIB bmp

end XWindowsClipboardBMPConverter

namespace OSXClipboardBMPConverter

def fromIClipboard (bmp : List UInt8) : List UInt8 := fileHeader bmp ++ bmp

def toIClipboard (bmp : List UInt8) : Option (List UInt8) := toDIB bmp

end OSXClipboardBMPConverter

namespace BMPConverter

def PixelsInside (bmp : List UInt8) : Prop :=
  bmp.length ≤ 14 + 40 ∨ bmp.getD 0 0 ≠ letterB ∨ bmp.getD 1 0 ≠ letterM ∨ imageOffset bmp ≤ bmp.length

instance (bmp : List UInt8) : Decidable (PixelsInside bmp) := inferInstanceAs (Decidable (_ ∨ _))

variable {bmp : List UInt8}

lemma substr_isSome {data : List UInt8} {pos len : ℕ} : (substr data pos len).isSome = true ↔ pos ≤ data.length := by
  rw [substr]
  split_ifs with h
  · exact iff_of_true rfl h
  · exact iff_of_false Bool.false_ne_true h

lemma toDIB_isSome : (toDIB bmp).isSome = true ↔ PixelsInside bmp := by
  rw [toDIB, PixelsInside]
  split_ifs with hlen hmagic hoffset
  · exact iff_of_true rfl (.inl hlen)
  · exact iff_of_true rfl (.inr (hmagic.imp_right .inl))
  · rw [substr_isSome]
    have hinside : imageOffset bmp ≤ bmp.length := by omega
    exact iff_of_true (by omega) (.inr (.inr (.inr hinside)))
  · have hheader : substr bmp 14 40 = some ((bmp.drop 14).take 40) := if_pos (by omega)
    rw [hheader, Option.bind_some, Option.isSome_map, substr_isSome]
    constructor
    · exact fun h => .inr (.inr (.inr h))
    · rintro (h | h | h | h)
      · exact absurd h hlen
      · exact absurd (.inl h) hmagic
      · exact absurd (.inr h) hmagic
      · exact h

lemma fileHeader_length (bmp : List UInt8) : (fileHeader bmp).length = 14 := rfl

lemma loadLittleEndianU32_append (src : UInt32) (rest : List UInt8) :
    loadLittleEndianU32 (storeLittleEndianU32 src ++ rest) = loadLittleEndianU32 (storeLittleEndianU32 src) := rfl

lemma imageOffset_fileHeader (bmp : List UInt8) : imageOffset (fileHeader bmp ++ bmp) = 14 + 40 := by
  have hdrop : (fileHeader bmp ++ bmp).drop 10 = storeLittleEndianU32 (14 + 40) ++ bmp := rfl
  rw [imageOffset, hdrop, loadLittleEndianU32_append]
  decide

lemma toDIB_fileHeader (h : 40 < bmp.length) : toDIB (fileHeader bmp ++ bmp) = some bmp := by
  have hlen : (fileHeader bmp ++ bmp).length = 14 + bmp.length := by rw [List.length_append, fileHeader_length]
  have hmagic : ¬((fileHeader bmp ++ bmp).getD 0 0 ≠ letterB ∨ (fileHeader bmp ++ bmp).getD 1 0 ≠ letterM) := by
    rintro (h | h)
    · exact h rfl
    · exact h rfl
  rw [toDIB, if_neg (by omega), if_neg hmagic, if_pos (imageOffset_fileHeader bmp), substr, if_pos (by omega),
    List.drop_left' (fileHeader_length bmp), List.take_of_length_le (by omega)]

end BMPConverter

namespace XWindowsClipboardBMPConverter

variable {bmp : List UInt8}

lemma toIClipboard_isSome : (toIClipboard bmp).isSome = true ↔ PixelsInside bmp := by
  rw [toIClipboard]
  split_ifs with h
  · exact iff_of_true rfl (.inl (by simp [h]))
  · exact toDIB_isSome

lemma toIClipboard_fromIClipboard (h : 40 < bmp.length) : toIClipboard (fromIClipboard bmp) = some bmp := by
  have hne : bmp ≠ [] := List.ne_nil_of_length_pos (by omega)
  have hfile : fileHeader bmp ++ bmp ≠ [] := by simp [hne]
  rw [fromIClipboard, if_neg hne, toIClipboard, if_neg hfile]
  exact toDIB_fileHeader h

end XWindowsClipboardBMPConverter

/-- No exception where the pixels start in the file, and nothing lost on the way to another program and back. -/
theorem bitmap_conversion_iff (bmp : List UInt8) :
    (((XWindowsClipboardBMPConverter.toIClipboard bmp).isSome = true ∧
        (OSXClipboardBMPConverter.toIClipboard bmp).isSome = true) ↔ PixelsInside bmp) ∧
      ∀ d : List UInt8, 40 < d.length →
        XWindowsClipboardBMPConverter.toIClipboard (XWindowsClipboardBMPConverter.fromIClipboard d) = some d ∧
        OSXClipboardBMPConverter.toIClipboard (OSXClipboardBMPConverter.fromIClipboard d) = some d := by
  constructor
  · rw [XWindowsClipboardBMPConverter.toIClipboard_isSome, OSXClipboardBMPConverter.toIClipboard, toDIB_isSome, and_self_iff]
  · intro d hd
    exact ⟨XWindowsClipboardBMPConverter.toIClipboard_fromIClipboard hd, toDIB_fileHeader hd⟩

def longOffset : List UInt8 := [letterB, letterM] ++ List.replicate 10 0 ++ [1] ++ List.replicate 42 0

theorem bitmap_throws : ¬ ((∀ bmp, (XWindowsClipboardBMPConverter.toIClipboard bmp).isSome = true ∧
    (OSXClipboardBMPConverter.toIClipboard bmp).isSome = true) ∧
      ∀ d : List UInt8, 40 < d.length →
        XWindowsClipboardBMPConverter.toIClipboard (XWindowsClipboardBMPConverter.fromIClipboard d) = some d ∧
        OSXClipboardBMPConverter.toIClipboard (OSXClipboardBMPConverter.fromIClipboard d) = some d) := by
  intro h
  exact absurd (h.1 longOffset).1 (by decide)

end InputLeap.Platform
