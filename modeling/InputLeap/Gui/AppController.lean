import InputLeap.Gui.Overlap

/-! What the window does to the layout by itself: it places the computers that ask to join, and takes the spelling that
a computer uses for its own name. -/

namespace InputLeap.Gui

open InputLeap.Lib

namespace LayoutModel

variable (qt : Qt) (m : LayoutModel)

def ensureServerPlaced : LayoutModel :=
  if m.serverName = [] ∨ m.hasScreen qt m.serverName then m else (m.addScreenAnywhere qt m.serverName).1

end LayoutModel

structure AppController where
  isServer : Bool
  screenName : Name
  ignoredJoins : List Name
  layout : LayoutModel
  deriving DecidableEq

namespace AppController

variable (qt : Qt) (c : AppController)

def withServer : LayoutModel := (c.layout.setServerName qt c.screenName).ensureServerPlaced qt

def ignores (name : Name) : Bool :=
  decide (c.isServer = false ∨ name = [] ∨ c.layout.hasScreen qt name ∨ qt.sameName name c.screenName ∨
    name ∈ c.ignoredJoins)

/-- `name` was found by discovery, announced by a peer, or refused by the core. -/
def autoPlace (name : Name) : AppController :=
  if c.ignores qt name then c
  else
    match (c.withServer qt).placeNextTo qt name c.screenName .right with
    | (layout, true) => { c with layout := layout }
    | (layout, false) => { c with layout := (layout.addScreenAnywhere qt name).1 }

def placeJoin (name : Name) (direction : Option Side) : AppController :=
  match direction.map fun side => (c.withServer qt).placeNextTo qt name c.screenName side with
  | some (layout, true) => { c with layout := layout }
  | some (layout, false) => { c with layout := (layout.addScreenAnywhere qt name).1 }
  | none => { c with layout := ((c.withServer qt).addScreenAnywhere qt name).1 }

def ignoreJoin (name : Name) : AppController := { c with ignoredJoins := name :: c.ignoredJoins }

def spelledAs (self : Name) : Option ℕ :=
  (c.layout.indexOf qt self).filter fun i =>
    (c.layout.screens[i]?).any fun s => decide (s.name ≠ self) && !qt.sameName self c.screenName

def adoptSelfName (self : Name) : AppController :=
  match c.spelledAs qt self with
  | none => c
  | some i => { c with layout := (c.layout.renameScreen qt i self).1 }

def adoptSelfNames (selfNames : List Name) : AppController :=
  if c.isServer then selfNames.foldl (adoptSelfName qt) c else c

def screenNameChanged (name : Name) : AppController :=
  { c with screenName := name, layout := c.layout.setServerName qt name }

def migrateConfigFile (fromFile : LayoutModel) : AppController :=
  { c with layout := (c.withServer qt).adoptScreens qt fromFile }

end AppController

inductive ControllerOp
  | autoPlace (name : Name)
  | placeJoin (name : Name) (direction : Option Side)
  | ignoreJoin (name : Name)
  | adoptSelfNames (selfNames : List Name)
  | screenNameChanged (name : Name)
  | migrateConfigFile (fromFile : LayoutModel)
  | edit (op : LayoutOp)

namespace AppController

variable (qt : Qt) (c : AppController)

def apply : ControllerOp → AppController
  | .autoPlace name => c.autoPlace qt name
  | .placeJoin name direction => c.placeJoin qt name direction
  | .ignoreJoin name => c.ignoreJoin name
  | .adoptSelfNames selfNames => c.adoptSelfNames qt selfNames
  | .screenNameChanged name => c.screenNameChanged qt name
  | .migrateConfigFile fromFile => c.migrateConfigFile qt fromFile
  | .edit op => { c with layout := c.layout.apply qt op }

def next (op : ControllerOp) : Option AppController := some (c.apply qt op)

def Initial : Prop := LayoutModel.Initial c.layout

end AppController

end InputLeap.Gui
