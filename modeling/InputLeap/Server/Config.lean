import InputLeap.Lib.OrdMap
import InputLeap.Server.DisplayGeometry
import Mathlib.Data.Prod.Lex
import Mathlib.Data.List.Lex
import Mathlib.Algebra.Order.Ring.Rat
import Mathlib.Data.Char

/-! The configuration of a server: screens, their aliases, the links between parts of their edges,
and options. Names are compared without case. Positions on edges are floats: each operation on them
is rounded by `rnd`. -/

namespace InputLeap

open InputLeap.Lib

abbrev Name := List Char

def caseless (n : Name) : Name := n.map Char.toLower

structure CellEdge where
  name : Name
  side : Direction
  first : ℚ
  second : ℚ
  deriving DecidableEq

namespace CellEdge

def key (e : CellEdge) : ℕ ×ₗ ℚ := toLex (e.side.toNat, e.first)

def isInside (e : CellEdge) (x : ℚ) : Bool := decide (e.first ≤ x ∧ x < e.second)

def overlaps (d e : CellEdge) : Bool :=
  decide (d.side = e.side ∧
    (e.first ≤ d.first ∧ d.first < e.second ∨ e.first < d.second ∧ d.second ≤ e.second ∨
      d.first ≤ e.first ∧ e.first < d.second ∨ d.first < e.second ∧ e.second ≤ d.second))

/-- `operator==`, which ignores the name. -/
def same (d e : CellEdge) : Bool :=
  decide (d.side = e.side ∧ d.first = e.first ∧ d.second = e.second)

def transform (rnd : ℚ → ℚ) (e : CellEdge) (x : ℚ) : ℚ :=
  rnd (rnd (x - e.first) / rnd (e.second - e.first))

def inverseTransform (rnd : ℚ → ℚ) (e : CellEdge) (x : ℚ) : ℚ :=
  rnd (rnd (x * rnd (e.second - e.first)) + e.first)

end CellEdge

abbrev OptionID := ℕ

abbrev OptionValue := BitVec 32

abbrev ScreenOptions := OrdMap (id : OptionID → ℕ) OptionValue

def optionCode (s : String) : OptionID := s.toList.foldl (fun n c => 256 * n + c.toNat) 0

def kOptionScreenSwitchCorners : OptionID := optionCode "SSCM"
def kOptionScreenSwitchCornerSize : OptionID := optionCode "SSCS"
def kOptionScreenSwitchDelay : OptionID := optionCode "SSWT"
def kOptionScreenSwitchTwoTap : OptionID := optionCode "SSTT"
def kOptionScreenSwitchNeedsShift : OptionID := optionCode "SSNS"
def kOptionScreenSwitchNeedsControl : OptionID := optionCode "SSNC"
def kOptionScreenSwitchNeedsAlt : OptionID := optionCode "SSNA"
def kOptionRelativeMouseMoves : OptionID := optionCode "MDLT"
def kOptionClipboardSharing : OptionID := optionCode "CLPS"
def kOptionClipboardSharingSize : OptionID := optionCode "CLSZ"
def kOptionScreenDimmingEnabled : OptionID := optionCode "DMEN"

structure Cell where
  neighbors : OrdMap CellEdge.key CellEdge
  options : ScreenOptions

namespace Cell

def empty : Cell := ⟨.empty, .empty⟩

def hasEdge (c : Cell) (edge : CellEdge) : Bool :=
  (c.neighbors.entries.find? fun e => decide (e.1.key = edge.key)).any fun e => e.1.same edge

def overlaps (c : Cell) (edge : CellEdge) : Bool :=
  (c.neighbors.firstGt? edge).any (fun e => e.1.overlaps edge) ||
    (c.neighbors.lastLe? edge).any (fun e => e.1.overlaps edge)

def add (c : Cell) (src dst : CellEdge) : Option Cell :=
  if !c.hasEdge src && c.overlaps src then none
  else some { c with neighbors := (c.neighbors.erase src).insert src dst }

def getLink (c : Cell) (side : Direction) (position : ℚ) : Option (CellEdge × CellEdge) :=
  match c.neighbors.lastLe? ⟨[], side, position, position⟩ with
  | none => none
  | some (src, dst) => if src.side = side ∧ src.isInside position then some (src, dst) else none

end Cell

structure Config where
  map : OrdMap caseless Cell
  nameToCanonicalName : OrdMap caseless Name
  globalOptions : ScreenOptions
  displays : OrdMap (id : Name → Name) (List DisplayRect)

namespace Config

def empty : Config := ⟨.empty, .empty, .empty, .empty⟩

def isScreen (c : Config) (name : Name) : Bool := c.nameToCanonicalName.contains name

def getCanonicalName (c : Config) (name : Name) : Name := (c.nameToCanonicalName.find? name).getD []

def isCanonicalName (c : Config) (name : Name) : Bool :=
  decide (name ≠ [] ∧ caseless (c.getCanonicalName name) = caseless name)

def addScreen (c : Config) (name : Name) : Option Config :=
  if c.nameToCanonicalName.contains name then none
  else some { c with
    map := c.map.insert name .empty
    nameToCanonicalName := c.nameToCanonicalName.insert name name }

def ofScreens (names : List Name) : Config := names.foldl (fun c name => (c.addScreen name).getD c) empty

def addAlias (c : Config) (canonical name : Name) : Option Config :=
  if c.nameToCanonicalName.contains name || !c.map.contains canonical then none
  else some { c with nameToCanonicalName := c.nameToCanonicalName.insert name canonical }

/-- The intervals must lie within `[0, 1]` and not be empty, or an assertion fails. -/
def connect (c : Config) (srcName : Name) (srcSide : Direction) (srcStart srcEnd : ℚ) (dstName : Name)
    (dstStart dstEnd : ℚ) : Option Config :=
  if srcSide ≠ .noDirection ∧ 0 ≤ srcStart ∧ srcStart < srcEnd ∧ srcEnd ≤ 1 ∧
      0 ≤ dstStart ∧ dstStart < dstEnd ∧ dstEnd ≤ 1 then
    match c.map.find? (c.getCanonicalName srcName) with
    | none => none
    | some cell =>
      (cell.add ⟨[], srcSide, srcStart, srcEnd⟩ ⟨dstName, srcSide, dstStart, dstEnd⟩).map fun cell =>
        { c with map := c.map.modify (c.getCanonicalName srcName) fun _ => cell }
  else none

def getNeighbor (rnd : ℚ → ℚ) (c : Config) (srcName : Name) (srcSide : Direction) (position : ℚ) : Name × ℚ :=
  match c.map.find? (c.getCanonicalName srcName) with
  | none => ([], position)
  | some cell =>
    match cell.getLink srcSide position with
    | none => ([], position)
    | some (src, dst) =>
      (c.getCanonicalName dst.name, dst.inverseTransform rnd (src.transform rnd position))

def getOptions (c : Config) (name : Name) : Option ScreenOptions :=
  if name = [] then some c.globalOptions else (c.map.find? name).map Cell.options

/-- An option that is already there keeps its value. -/
def addOption (c : Config) (name : Name) (option : OptionID) (value : OptionValue) : Option Config :=
  if name = [] then some { c with globalOptions := c.globalOptions.insert option value }
  else if c.map.contains name then
    some { c with map := c.map.modify name fun cell =>
      { cell with options := cell.options.insert option value } }
  else none

def displaysOf (c : Config) (name : Name) : Option (List DisplayRect) :=
  c.displays.find? (c.getCanonicalName name)

lemma getCanonicalName_mem {c : Config} {name : Name} (h : c.getCanonicalName name ≠ []) :
    ∃ n, (n, c.getCanonicalName name) ∈ c.nameToCanonicalName.entries := by
  rw [getCanonicalName] at h ⊢
  cases hf : c.nameToCanonicalName.find? name with
  | none => simp [hf] at h
  | some canonical =>
    obtain ⟨n, -, hmem⟩ := OrdMap.find?_eq_some.mp hf
    exact ⟨n, hmem⟩

end Config

end InputLeap
