import InputLeap.Lib.Reachable
import Mathlib.Data.List.Basic

/-! A client edits its copy of the server's configuration, its mirror. The whole configuration goes to
the server 300 ms after the last edit, is answered with an ack, and comes back in a broadcast that is
sent 150 ms after the last change of a document. -/

namespace InputLeap.Gui

open InputLeap.Lib

inductive Kind
  | serverConfig
  | other
  deriving DecidableEq

/-- A `set-config` request, with the edits made since the one before it. -/
structure SetConfig (α ε : Type) where
  layout : α
  edits : List ε
  deriving DecidableEq

inductive ServerLine (α ε : Type)
  | ack (ok : Bool) (edits : List ε)
  | serverConfig (layout : α)
  | other
  deriving DecidableEq

structure ConfigSync (α ε : Type) where
  mirror : α
  configSendTimer : Bool
  configInFlight : ℕ
  mirrorStale : Bool
  serverDocument : α
  layout : α
  document : α
  dirty : List Kind
  broadcastTimer : Bool
  toServer : List (SetConfig α ε)
  toClient : List (ServerLine α ε)
  /-- The edits since the last request, and those acknowledged as ok. -/
  unsent : List ε
  acknowledged : List ε
  deriving DecidableEq

inductive SyncEvent (ε : Type)
  | edit (e : ε)
  | configSendTimeout
  | takeRequest
  | setDocument
  | broadcastTimeout
  | receive

namespace ConfigSync

variable {α ε : Type} (edit : α → ε → α) (accepts : α → Bool)

def reloadMirror (s : ConfigSync α ε) : ConfigSync α ε :=
  if 0 < s.configInFlight ∨ s.configSendTimer then { s with mirrorStale := true }
  else { s with mirrorStale := false, mirror := s.serverDocument }

def sendServerConfig (s : ConfigSync α ε) : ConfigSync α ε :=
  { s with
    configInFlight := s.configInFlight + 1
    toServer := s.toServer ++ [⟨s.mirror, s.unsent⟩]
    unsent := [] }

def countAck (s : ConfigSync α ε) (ok : Bool) (edits : List ε) : ConfigSync α ε :=
  { s with
    configInFlight := s.configInFlight - 1
    mirrorStale := s.mirrorStale || !ok
    acknowledged := if ok then s.acknowledged ++ edits else s.acknowledged }

/-- The handler that `sendServerConfig` gives to its request. -/
def acknowledge (s : ConfigSync α ε) (ok : Bool) (edits : List ε) : ConfigSync α ε :=
  let s := s.countAck ok edits
  if s.configInFlight = 0 ∧ s.mirrorStale then s.reloadMirror else s

def markDirty (s : ConfigSync α ε) (kind : Kind) : ConfigSync α ε :=
  { s with
    dirty := if kind ∈ s.dirty then s.dirty else s.dirty ++ [kind]
    broadcastTimer := true }

def setServerConfig [DecidableEq α] (s : ConfigSync α ε) : ConfigSync α ε :=
  if s.document = s.layout then s else { s with document := s.layout }.markDirty .serverConfig

def handleSyncRequest [DecidableEq α] (s : ConfigSync α ε) (request : SetConfig α ε) : ConfigSync α ε :=
  if accepts request.layout then
    let s := { s with layout := request.layout }.setServerConfig
    { s with toClient := s.toClient ++ [.ack true request.edits] }
  else { s with toClient := s.toClient ++ [.ack false request.edits] }

def sendDocument (s : ConfigSync α ε) : Kind → ServerLine α ε
  | .serverConfig => .serverConfig s.document
  | .other => .other

def broadcast (s : ConfigSync α ε) : ConfigSync α ε :=
  { s with dirty := [], toClient := s.toClient ++ s.dirty.map s.sendDocument }

def handleLine (s : ConfigSync α ε) : ServerLine α ε → ConfigSync α ε
  | .ack ok edits => s.acknowledge ok edits
  | .serverConfig layout => { s with serverDocument := layout }.reloadMirror
  | .other => s.reloadMirror

def next [DecidableEq α] (s : ConfigSync α ε) : SyncEvent ε → Option (ConfigSync α ε)
  | .edit e =>
    some { s with mirror := edit s.mirror e, configSendTimer := true, unsent := s.unsent ++ [e] }
  | .configSendTimeout => if s.configSendTimer then some { s with configSendTimer := false }.sendServerConfig else none
  | .takeRequest =>
    match s.toServer with
    | [] => none
    | request :: rest => some ({ s with toServer := rest }.handleSyncRequest accepts request)
  | .setDocument => some (s.markDirty .other)
  | .broadcastTimeout => if s.broadcastTimer then some { s with broadcastTimer := false }.broadcast else none
  | .receive =>
    match s.toClient with
    | [] => none
    | line :: rest => some ({ s with toClient := rest }.handleLine line)

def start (c : α) : ConfigSync α ε := ⟨c, false, 0, false, c, c, c, [], false, [], [], [], []⟩

def Quiet (s : ConfigSync α ε) : Prop :=
  s.toServer = [] ∧ s.toClient = [] ∧ s.configSendTimer = false ∧ s.broadcastTimer = false

instance [DecidableEq α] [DecidableEq ε] (s : ConfigSync α ε) : Decidable s.Quiet := inferInstanceAs (Decidable (_ ∧ _ ∧ _ ∧ _))

/-- What the server holds once it has taken every request that is under way. -/
def underWay (s : ConfigSync α ε) : α := s.toServer.getLast?.elim s.layout SetConfig.layout

/-- An edit is made on what the server will hold, and a request is refused only if no edit followed it. -/
def InStep (s : ConfigSync α ε) : SyncEvent ε → Prop
  | .edit _ => s.configSendTimer = true ∨ s.mirror = s.underWay
  | .takeRequest =>
    (∀ request ∈ s.toServer.head?, accepts request.layout = true) ∨
      s.toServer.length = 1 ∧ s.configSendTimer = false
  | _ => True

instance [DecidableEq α] : ∀ (s : ConfigSync α ε) (e : SyncEvent ε), Decidable (s.InStep accepts e)
  | _, .edit _ => inferInstanceAs (Decidable (_ ∨ _))
  | s, .takeRequest =>
    inferInstanceAs (Decidable ((∀ request ∈ s.toServer.head?, accepts request.layout = true) ∨ _))
  | _, .configSendTimeout | _, .setDocument | _, .broadcastTimeout | _, .receive => .isTrue trivial

section Frame

variable (s : ConfigSync α ε)

@[simp] lemma reloadMirror_configSendTimer : s.reloadMirror.configSendTimer = s.configSendTimer := by
  rw [reloadMirror]
  split_ifs <;> rfl

@[simp] lemma reloadMirror_layout : s.reloadMirror.layout = s.layout := by
  rw [reloadMirror]
  split_ifs <;> rfl

@[simp] lemma reloadMirror_toServer : s.reloadMirror.toServer = s.toServer := by
  rw [reloadMirror]
  split_ifs <;> rfl

@[simp] lemma reloadMirror_toClient : s.reloadMirror.toClient = s.toClient := by
  rw [reloadMirror]
  split_ifs <;> rfl

@[simp] lemma reloadMirror_unsent : s.reloadMirror.unsent = s.unsent := by
  rw [reloadMirror]
  split_ifs <;> rfl

@[simp] lemma reloadMirror_acknowledged : s.reloadMirror.acknowledged = s.acknowledged := by
  rw [reloadMirror]
  split_ifs <;> rfl

variable {s}

lemma reloadMirror_mirror (h : s.configSendTimer = true) : s.reloadMirror.mirror = s.mirror := by
  rw [reloadMirror, if_pos (.inr h)]

end Frame

def Follows : α → List (SetConfig α ε) → Prop
  | _, [] => True
  | c, request :: rest => request.layout = request.edits.foldl edit c ∧ Follows request.layout rest

lemma Follows.concat {c : α} {requests : List (SetConfig α ε)} {request : SetConfig α ε}
    (h : Follows edit c requests)
    (hlast : request.layout = request.edits.foldl edit (requests.getLast?.elim c SetConfig.layout)) :
    Follows edit c (requests ++ [request]) := by
  induction requests generalizing c with
  | nil => exact ⟨hlast, trivial⟩
  | cons first rest ih =>
    refine ⟨h.1, ih h.2 ?_⟩
    rw [hlast]
    cases rest with
    | nil => rfl
    | cons second rest => rw [List.getLast?_cons_cons]; rfl

def ServerLine.accepted : ServerLine α ε → List ε
  | .ack true edits => edits
  | _ => []

/-- The edits that the server took, also those whose ack is still under way. -/
def taken (s : ConfigSync α ε) : List ε := s.acknowledged ++ s.toClient.flatMap ServerLine.accepted

structure Inv (c : α) (s : ConfigSync α ε) : Prop where
  requests : Follows edit s.layout s.toServer
  mirror : s.configSendTimer = true → s.mirror = s.unsent.foldl edit s.underWay
  unsent : s.configSendTimer = false → s.unsent = []
  layout : s.layout = s.taken.foldl edit c

variable {edit accepts} {c : α} {s t : ConfigSync α ε}

lemma Inv.of_eq (h : Inv edit c s) (hlayout : t.layout = s.layout) (hrequests : t.toServer = s.toServer)
    (htimer : t.configSendTimer = s.configSendTimer) (hunsent : t.unsent = s.unsent) (htaken : t.taken = s.taken)
    (hmirror : s.configSendTimer = true → t.mirror = s.mirror) : Inv edit c t where
  requests := by rw [hlayout, hrequests]; exact h.requests
  mirror := by
    rw [htimer]
    intro ht
    rw [hmirror ht, h.mirror ht, hunsent, underWay, underWay, hlayout, hrequests]
  unsent := by rw [htimer, hunsent]; exact h.unsent
  layout := by rw [hlayout, htaken]; exact h.layout

lemma Inv.reloadMirror (h : Inv edit c s) : Inv edit c s.reloadMirror :=
  h.of_eq (by simp) (by simp) (by simp) (by simp) (by simp [taken]) reloadMirror_mirror

lemma Inv.start : Inv edit c (start c : ConfigSync α ε) where
  requests := trivial
  mirror := by simp [ConfigSync.start]
  unsent _ := rfl
  layout := rfl

lemma Inv.afterEdit {e : ε} (h : Inv edit c s) (hok : s.InStep accepts (.edit e)) :
    Inv edit c { s with mirror := edit s.mirror e, configSendTimer := true, unsent := s.unsent ++ [e] } where
  requests := h.requests
  mirror _ := by
    have hbefore : s.mirror = s.unsent.foldl edit s.underWay := by
      cases htimer : s.configSendTimer with
      | true => exact h.mirror htimer
      | false =>
        rw [h.unsent htimer]
        exact hok.resolve_left (by simp [htimer])
    rw [List.foldl_append, hbefore]
    rfl
  unsent := by simp
  layout := h.layout

lemma Inv.sendServerConfig (h : Inv edit c s) (htimer : s.configSendTimer = true) :
    Inv edit c ({ s with configSendTimer := false } : ConfigSync α ε).sendServerConfig where
  requests := h.requests.concat edit (h.mirror htimer)
  mirror := by simp [ConfigSync.sendServerConfig]
  unsent _ := rfl
  layout := h.layout

lemma Inv.accept {request : SetConfig α ε} {rest : List (SetConfig α ε)} (h : Inv edit c s)
    (hrequests : s.toServer = request :: rest) (hlayout : t.layout = request.layout) (hrest : t.toServer = rest)
    (htimer : t.configSendTimer = s.configSendTimer) (hunsent : t.unsent = s.unsent) (hmirror : t.mirror = s.mirror)
    (htaken : t.taken = s.taken ++ request.edits) : Inv edit c t := by
  have hchain : request.layout = request.edits.foldl edit s.layout ∧ Follows edit request.layout rest := by
    have hall := h.requests
    rw [hrequests] at hall
    exact hall
  have hunderWay : t.underWay = s.underWay := by
    rw [underWay, underWay, hrequests, hrest, hlayout]
    cases rest with
    | nil => rfl
    | cons second rest => rw [List.getLast?_cons_cons]; rfl
  refine ⟨?_, ?_, ?_, ?_⟩
  · rw [hlayout, hrest]
    exact hchain.2
  · rw [htimer, hmirror, hunsent, hunderWay]
    exact h.mirror
  · rw [htimer, hunsent]
    exact h.unsent
  · rw [hlayout, htaken, List.foldl_append, ← h.layout]
    exact hchain.1

lemma Inv.refuse (h : Inv edit c s) (htimer : s.configSendTimer = false)
    (hlayout : t.layout = s.layout) (hrest : t.toServer = []) (htimer' : t.configSendTimer = s.configSendTimer)
    (hunsent : t.unsent = s.unsent) (htaken : t.taken = s.taken) : Inv edit c t where
  requests := by rw [hrest]; trivial
  mirror := by simp [htimer', htimer]
  unsent := by rw [htimer', hunsent]; exact h.unsent
  layout := by rw [hlayout, htaken]; exact h.layout

section Server

variable [DecidableEq α] (s)

lemma setServerConfig_frame : s.setServerConfig.layout = s.layout ∧ s.setServerConfig.toServer = s.toServer ∧
    s.setServerConfig.configSendTimer = s.configSendTimer ∧ s.setServerConfig.unsent = s.unsent ∧
    s.setServerConfig.mirror = s.mirror ∧ s.setServerConfig.taken = s.taken := by
  rw [setServerConfig]
  split_ifs <;> exact ⟨rfl, rfl, rfl, rfl, rfl, rfl⟩

variable {s}

lemma Inv.handleSyncRequest {request : SetConfig α ε} {rest : List (SetConfig α ε)} (h : Inv edit c s)
    (hok : s.InStep accepts .takeRequest) (hrequests : s.toServer = request :: rest) :
    Inv edit c (({ s with toServer := rest } : ConfigSync α ε).handleSyncRequest accepts request) := by
  rw [ConfigSync.handleSyncRequest]
  split_ifs with haccepts
  · obtain ⟨hlayout, hrest, htimer, hunsent, hmirror, htaken⟩ :=
      setServerConfig_frame ({ s with toServer := rest, layout := request.layout } : ConfigSync α ε)
    refine h.accept hrequests hlayout hrest htimer hunsent hmirror ?_
    rw [taken, List.flatMap_append, ← List.append_assoc]
    exact congrArg₂ _ htaken (List.append_nil _)
  · -- nothing follows the refused request
    rw [InStep, hrequests] at hok
    obtain ⟨hone, htimer⟩ := hok.resolve_left fun hall => haccepts (hall request rfl)
    have hrest : rest = [] := List.eq_nil_of_length_eq_zero (by simpa using hone)
    refine h.refuse htimer rfl hrest rfl rfl ?_
    rw [taken, List.flatMap_append]
    simp [taken, ServerLine.accepted]

end Server

lemma Inv.broadcast (h : Inv edit c s) : Inv edit c ({ s with broadcastTimer := false } : ConfigSync α ε).broadcast := by
  refine h.of_eq rfl rfl rfl rfl ?_ fun _ => rfl
  have hnone : (s.dirty.map s.sendDocument).flatMap ServerLine.accepted = [] := by
    rw [List.flatMap_eq_nil_iff]
    intro line hline
    obtain ⟨kind, _, rfl⟩ := List.mem_map.mp hline
    cases kind <;> rfl
  rw [taken, taken, ConfigSync.broadcast, List.flatMap_append]
  exact congrArg _ ((congrArg _ hnone).trans (List.append_nil _))

lemma countAck_taken {ok : Bool} {edits : List ε} {rest : List (ServerLine α ε)}
    (hline : s.toClient = .ack ok edits :: rest) :
    (({ s with toClient := rest } : ConfigSync α ε).countAck ok edits).taken = s.taken := by
  rw [taken, taken, countAck, hline, List.flatMap_cons]
  cases ok <;> simp [ServerLine.accepted]

lemma Inv.handleLine {line : ServerLine α ε} {rest : List (ServerLine α ε)} (h : Inv edit c s)
    (hline : s.toClient = line :: rest) :
    Inv edit c (({ s with toClient := rest } : ConfigSync α ε).handleLine line) := by
  cases line with
  | ack ok edits =>
    have hcounted : Inv edit c (({ s with toClient := rest } : ConfigSync α ε).countAck ok edits) :=
      h.of_eq rfl rfl rfl rfl (countAck_taken hline) fun _ => rfl
    rw [ConfigSync.handleLine, acknowledge]
    split_ifs
    · exact hcounted.reloadMirror
    · exact hcounted
  | serverConfig layout =>
    refine Inv.reloadMirror (h.of_eq rfl rfl rfl rfl ?_ fun _ => rfl)
    rw [taken, taken, hline]
    rfl
  | other =>
    refine Inv.reloadMirror (h.of_eq rfl rfl rfl rfl ?_ fun _ => rfl)
    rw [taken, taken, hline]
    rfl

lemma Inv.next [DecidableEq α] {e : SyncEvent ε} (h : Inv edit c s) (hok : s.InStep accepts e)
    (hnext : s.next edit accepts e = some t) : Inv edit c t := by
  cases e with
  | edit e => exact Option.some.inj hnext ▸ h.afterEdit hok
  | configSendTimeout =>
    rw [ConfigSync.next] at hnext
    split_ifs at hnext with htimer
    exact Option.some.inj hnext ▸ h.sendServerConfig htimer
  | takeRequest =>
    cases hrequests : s.toServer with
    | nil => simp [ConfigSync.next, hrequests] at hnext
    | cons request rest =>
      simp only [ConfigSync.next, hrequests, Option.some.injEq] at hnext
      exact hnext ▸ h.handleSyncRequest hok hrequests
  | setDocument => exact Option.some.inj hnext ▸ h.of_eq rfl rfl rfl rfl rfl fun _ => rfl
  | broadcastTimeout =>
    rw [ConfigSync.next] at hnext
    split_ifs at hnext
    exact Option.some.inj hnext ▸ h.broadcast
  | receive =>
    cases hline : s.toClient with
    | nil => simp [ConfigSync.next, hline] at hnext
    | cons line rest =>
      simp only [ConfigSync.next, hline, Option.some.injEq] at hnext
      exact hnext ▸ h.handleLine hline

theorem quiet_layout_eq [DecidableEq α] (c : α) (s : ConfigSync α ε)
    (hrun : Reachable (· = start c) (ConfigSync.next edit accepts) (ConfigSync.InStep accepts) s)
    (hquiet : s.Quiet) : s.layout = s.acknowledged.foldl edit c := by
  have hinv : Inv edit c s := hrun.invariant (fun s hs => hs ▸ .start) fun _ _ _ h hok hnext => h.next hok hnext
  have htaken : s.taken = s.acknowledged := by
    rw [taken, hquiet.2.1]
    exact List.append_nil _
  rw [← htaken]
  exact hinv.layout

theorem quiet_layout_two_edits : ∃ s : ConfigSync (List ℕ) ℕ,
    s.acknowledged = [1, 2] ∧ s.Quiet ∧ s.layout = s.acknowledged.foldl (fun c e => c ++ [e]) [] := by
  have hreached : ∃ s : ConfigSync (List ℕ) ℕ,
      Reachable (· = start []) (next (fun c e => c ++ [e]) fun _ => true) (InStep fun _ => true) s ∧
        s.acknowledged = [1, 2] ∧ s.Quiet :=
    Reachable.exists_of_run rfl
      [.setDocument, .edit 1, .configSendTimeout, .takeRequest, .edit 2, .broadcastTimeout, .receive, .receive,
        .receive, .configSendTimeout, .takeRequest, .receive, .broadcastTimeout, .receive] (by decide)
  obtain ⟨s, hrun, hacknowledged, hquiet⟩ := hreached
  exact ⟨s, hacknowledged, hquiet, quiet_layout_eq [] s hrun hquiet⟩

/-- The second edit is made on a mirror reloaded from the document of before the first. -/
theorem acknowledged_edit_lost : ∃ s : ConfigSync (List ℕ) ℕ,
    Reachable (· = start []) (next (fun c e => c ++ [e]) fun _ => true) (fun _ _ => True) s ∧
      s.Quiet ∧ s.acknowledged = [1, 2] ∧ s.layout = [2] :=
  Reachable.exists_of_run rfl
    [.setDocument, .edit 1, .configSendTimeout, .takeRequest, .broadcastTimeout, .receive, .receive, .edit 2,
      .receive, .configSendTimeout, .takeRequest, .receive, .broadcastTimeout, .receive] (by decide)

end ConfigSync

end InputLeap.Gui
