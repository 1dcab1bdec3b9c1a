import InputLeap.Protocol.Hello
import InputLeap.Protocol.MessageLoop
import Mathlib.Data.List.Nodup

/-! The codes of the messages, by which the parsers of both sides choose a function, and the formats behind them. -/

namespace InputLeap.Protocol

open InputLeap.Lib ProtocolUtil

inductive MessageCode
  | cDimScreen
  | cLockState
  | dMouseMove
  | dMouseRelMove
  | dMouseWheel
  | dKeyDown
  | dKeyUp
  | dMouseDown
  | dMouseUp
  | dKeyRepeat
  | cKeepAlive
  | cNoop
  | cEnter
  | cLeave
  | cClipboard
  | cScreenSaver
  | qInfo
  | cInfoAck
  | dClipboard
  | cResetOptions
  | dSetOptions
  | dFileTransfer
  | dDragInfo
  | dInfo
  | dUndimRequest
  | cClose
  | eIncompatible
  | eBusy
  | eUnknown
  | eBad
  deriving DecidableEq

namespace MessageCode

def format : MessageCode → List Char
  | cDimScreen => "CDIM%1i".toList
  | cLockState => "CLCK%1i".toList
  | dMouseMove => "DMMV%2i%2i".toList
  | dMouseRelMove => "DMRM%2i%2i".toList
  | dMouseWheel => "DMWM%2i%2i".toList
  | dKeyDown => "DKDN%2i%2i%2i".toList
  | dKeyUp => "DKUP%2i%2i%2i".toList
  | dMouseDown => "DMDN%1i".toList
  | dMouseUp => "DMUP%1i".toList
  | dKeyRepeat => "DKRP%2i%2i%2i%2i".toList
  | cKeepAlive => "CALV".toList
  | cNoop => "CNOP".toList
  | cEnter => "CINN%2i%2i%4i%2i".toList
  | cLeave => "COUT".toList
  | cClipboard => "CCLP%1i%4i".toList
  | cScreenSaver => "CSEC%1i".toList
  | qInfo => kMsgQInfo
  | cInfoAck => "CIAK".toList
  | dClipboard => kMsgDClipboard
  | cResetOptions => "CROP".toList
  | dSetOptions => "DSOP%4I".toList
  | dFileTransfer => "DFTR%1i%s".toList
  | dDragInfo => "DDRG%2i%s".toList
  | dInfo => "DINF%2i%2i%2i%2i%2i%2i%2i".toList
  | dUndimRequest => "DUNR".toList
  | cClose => "CBYE".toList
  | eIncompatible => kMsgEIncompatible
  | eBusy => "EBSY".toList
  | eUnknown => "EUNK".toList
  | eBad => kMsgEBad

def bytes (c : MessageCode) : List UInt8 := (c.format.take 4).map Char.toUInt8

def body (c : MessageCode) : List Char := c.format.drop 4

def codes : List MessageCode :=
  [cDimScreen, cLockState, dMouseMove, dMouseRelMove, dMouseWheel, dKeyDown, dKeyUp, dMouseDown, dMouseUp, dKeyRepeat,
    cKeepAlive, cNoop, cEnter, cLeave, cClipboard, cScreenSaver, qInfo, cInfoAck, dClipboard, cResetOptions, dSetOptions,
    dFileTransfer, dDragInfo, dInfo, dUndimRequest, cClose, eIncompatible, eBusy, eUnknown, eBad]

lemma mem_codes (c : MessageCode) : c ∈ codes := by
  cases c <;> simp [codes]

lemma codes_spec :
    (∀ c ∈ codes, c.bytes.length = 4 ∧ ∀ x ∈ c.format.take 4, x ≠ '%') ∧ (codes.map bytes).Nodup := by
  decide +kernel

section Code

variable (c : MessageCode)

lemma format_eq : c.format.take 4 ++ c.body = c.format := List.take_append_drop 4 c.format

lemma bytes_length : c.bytes.length = 4 := (codes_spec.1 c (mem_codes c)).1

lemma code_valid : ∀ x ∈ c.format.take 4, x ≠ '%' := (codes_spec.1 c (mem_codes c)).2

variable {fields : List Field}

lemma literals_format (xs : List Char) : (xs.map Field.literal).flatMap Field.format = xs := by
  induction xs with
  | nil => rfl
  | cons x xs ih => exact congrArg (x :: ·) ih

lemma literals_args (xs : List Char) : (xs.map Field.literal).flatMap Field.args = [] := by
  induction xs with
  | nil => rfl
  | cons x xs ih => exact ih

lemma literals_bytes (xs : List Char) : (xs.map Field.literal).flatMap Field.bytes = xs.map Char.toUInt8 := by
  induction xs with
  | nil => rfl
  | cons x xs ih => exact congrArg (x.toUInt8 :: ·) ih

lemma stringLast_literals (xs : List Char) {items : List Item} (h : StringLast items) :
    StringLast (xs.map Item.literal ++ items) := by
  induction xs with
  | nil => exact h
  | cons x xs ih => exact ⟨fun hx => absurd hx (by simp), ih⟩

lemma writef_fields (hfields : ∀ f ∈ fields, f.Valid) (hlast : StringLast (fields.map Field.item))
    (hlt : (c.bytes ++ fields.flatMap Field.bytes).length < 2 ^ 32) :
    writef (c.format.take 4 ++ fields.flatMap Field.format) (fields.flatMap Field.args) =
      some (c.bytes ++ fields.flatMap Field.bytes) := by
  set code := (c.format.take 4).map Field.literal with hcode
  have hvalid : ∀ f ∈ code ++ fields, f.Valid := by
    intro f hf
    rcases List.mem_append.mp hf with hf | hf
    · obtain ⟨x, hx, rfl⟩ := List.mem_map.mp hf
      exact c.code_valid x hx
    · exact hfields f hf
  have hformat : (code ++ fields).flatMap Field.format = c.format.take 4 ++ fields.flatMap Field.format := by
    rw [List.flatMap_append, hcode, literals_format]
  have hargs : (code ++ fields).flatMap Field.args = fields.flatMap Field.args := by
    rw [List.flatMap_append, hcode, literals_args, List.nil_append]
  have hbytes : (code ++ fields).flatMap Field.bytes = c.bytes ++ fields.flatMap Field.bytes := by
    rw [List.flatMap_append, hcode, literals_bytes, bytes]
  have hwrite := writefVoid_fields hvalid
  have hparse := parse_fields hvalid
  rw [hformat] at hwrite hparse
  rw [hargs, hbytes] at hwrite
  have hitems : writeItems ((code ++ fields).map Field.item) (fields.flatMap Field.args) =
      some (c.bytes ++ fields.flatMap Field.bytes) := by
    rwa [writefVoid, hparse, Option.bind_some] at hwrite
  refine writef_eq_some ?_ hwrite
  rw [getLength, hparse, Option.bind_some]
  refine lengthItems_eq hitems hlt ?_ fun _ hnull => ?_
  · rw [List.map_append, hcode, List.map_map]
    exact stringLast_literals _ hlast
  · obtain ⟨f, -, hf⟩ := List.mem_flatMap.mp hnull
    cases f <;> simp [Field.args] at hf

end Code

def compared (codes : List MessageCode) (code : List UInt8) : Option MessageCode :=
  codes.find? fun c => c.bytes = code

lemma bytes_inj {c d : MessageCode} : c.bytes = d.bytes ↔ c = d :=
  ⟨List.inj_on_of_nodup_map codes_spec.2 (mem_codes c) (mem_codes d), congrArg bytes⟩

lemma compared_bytes {codes : List MessageCode} {c : MessageCode} :
    compared codes c.bytes = if c ∈ codes then some c else none := by
  rw [compared]
  simp only [bytes_inj]
  induction codes with
  | nil => rfl
  | cons d codes ih =>
    rw [List.find?_cons]
    by_cases h : d = c
    · simp [h]
    · simp [h, ih, Ne.symm h]

end MessageCode

end InputLeap.Protocol
