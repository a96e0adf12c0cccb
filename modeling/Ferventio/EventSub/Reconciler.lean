import Ferventio.EventSub.Reconcile
import Ferventio.Server.Tasks

/-!
# The reconciler's goroutine

`runEventSubReconciler` reconciles once at the start, every 15 minutes, and when it takes a request
out of a channel with one slot. Handlers that change the registrations put a request there; it is
dropped when the slot is full. On request, the reconciler waits 750 ms and empties the channel
first.

* **`no_reconcile_request_lost`**: an idle reconciler has seen every change that was requested.
-/

namespace Ferventio

/-! ## The goroutine -/

/-- Where the goroutine is. -/
inductive ReconcilerPosition
  /-- At the call of `store.List` in `reconcile`. -/
  | listing
  /-- In `reconcile`, with the requests to Twitch that it has still to make. -/
  | reconciling (code : Handler (Nat × Nat × Result Unit))
  /-- In the outer `select`. -/
  | waiting
  /-- In the wait of 750 ms. -/
  | coalescing
  /-- In the loop that empties the channel. -/
  | draining
  /-- Returned. -/
  | stopped

/-- A move of the server, a call of `reconcile`, or a case of a `select`. -/
inductive ReconcilerMove
  | server (move : System.Move Task Choice)
  | call (x : Choice)
  | done
  | tick
  | receive
  | timer
  | drain

/-- The server and the reconciler, with the calls before the latest `store.List`. -/
structure ReconcilerConfiguration where
  server : ServerConfiguration
  position : ReconcilerPosition
  listed : List ServerEvent

/-- The position in `reconcile` before the rest of its calls. -/
def ReconcilerPosition.resume : Handler (Nat × Nat × Result Unit) → ReconcilerPosition
  | .ret _ => .waiting
  | .call op k => .reconciling (.call op k)

namespace ReconcilerConfiguration

/-- With another world. -/
def setWorld (c : ReconcilerConfiguration) (w : World) : ReconcilerConfiguration :=
  { c with server := ⟨⟨w, c.server.hist⟩, c.server.procs⟩ }

/-- A round is requested. -/
def requested (c : ReconcilerConfiguration) : Bool := c.server.state.reconcileRequested

/-- The request is taken. -/
def take (c : ReconcilerConfiguration) : ReconcilerConfiguration :=
  c.setWorld { c.server.state with reconcileRequested := false }

/-- With another position. -/
def goto (c : ReconcilerConfiguration) (position : ReconcilerPosition) : ReconcilerConfiguration :=
  { c with position }

variable (env : Env) (may : ServerView → Task → Bool)

/-- The next call of `reconcile`; the first is `store.List`. -/
def call (c : ReconcilerConfiguration) (x : Choice) : Option ReconcilerConfiguration :=
  match c.position with
  | .listing =>
    match exec env (.registration .list) x c.server.state with
    | some (registrations, w) =>
      some { (c.setWorld w).goto (.resume (reconcile env.cfg registrations)) with
        listed := c.server.hist }
    | none => none
  | .reconciling (.call op k) =>
    match exec env op x c.server.state with
    | some (a, w) => some ((c.setWorld w).goto (.resume (k a)))
    | none => none
  | _ => none

/-- One step. A send is a call of the server's handlers. -/
def advance (c : ReconcilerConfiguration) : ReconcilerMove → Option ReconcilerConfiguration
  | .server move =>
    match (Ferventio.server env may).advance (fun _ _ _ _ => true) c.server move with
    | some server => some { c with server }
    | none => none
  | .call x => c.call env x
  | .done =>
    match c.position with
    | .waiting => some (c.goto .stopped)
    | .coalescing => some (c.goto .stopped)
    | _ => none
  | .tick =>
    match c.position with
    | .waiting => some (c.goto .listing)
    | _ => none
  | .receive =>
    match c.position, c.requested with
    | .waiting, true => some (c.take.goto .coalescing)
    | _, _ => none
  | .timer =>
    match c.position with
    | .coalescing => some (c.goto .draining)
    | _ => none
  | .drain =>
    match c.position, c.requested with
    | .draining, true => some c.take
    | .draining, false => some (c.goto .listing)
    | _, _ => none

/-- A sequence of moves. -/
def play : List ReconcilerMove → ReconcilerConfiguration → Option ReconcilerConfiguration
  | [], c => some c
  | move :: moves, c =>
    match c.advance env may move with
    | some c' => play moves c'
    | none => none

/-- The goroutine returns at once without a configuration. -/
def initial (w : World) : ReconcilerConfiguration where
  server := started w
  position := if env.cfg.eventSubEnabled then .listing else .stopped
  listed := []

end ReconcilerConfiguration

/-! ## The channel -/

section Channel

variable {env : Env} {x : Choice} {w w' : World}

theorem execTwitch_reconcileRequested (x : Choice) (call : TwitchCall) (w : World) :
    (execTwitch x call w).2.reconcileRequested = w.reconcileRequested := by
  cases call with
  | createSubscription =>
    simp only [execTwitch]
    split <;> rfl
  | deleteSubscription =>
    simp only [execTwitch]
    split <;> rfl
  | _ => rfl

theorem exec_reconcileRequested {call : Call} {a : call.Ans}
    (h : exec env call x w = some (a, w')) (hreq : w.reconcileRequested) :
    w'.reconcileRequested := by
  cases call with
  | twitch call =>
    have hw' : w' = (execTwitch x call w).2 := (congrArg Prod.snd (Option.some.inj h)).symm
    rw [hw', execTwitch_reconcileRequested]
    exact hreq
  | env call =>
    cases call with
    | randomToken =>
      simp only [exec, execEnv] at h
      split at h <;> cases h <;> exact hreq
    | lock =>
      simp only [exec, execEnv] at h
      split at h <;> cases h
      exact hreq
    | sendPush =>
      simp only [exec, execEnv] at h
      split at h
      · cases h
        exact hreq
      · split at h <;> cases h <;> exact hreq
    | cachedModeratedChannels =>
      simp only [exec, execEnv] at h
      split at h <;> cases h <;> exact hreq
    | requestEventSubReconcile =>
      simp only [exec, execEnv] at h
      cases h
      split
      · rfl
      · exact hreq
    | _ =>
      cases h
      exact hreq
  | _ =>
    cases h
    exact hreq

theorem exec_requestEventSubReconcile {a : Unit}
    (h : exec env (.env .requestEventSubReconcile) x w = some (a, w'))
    (hon : env.cfg.eventSubEnabled) : w'.reconcileRequested := by
  simp only [exec, execEnv, if_pos hon] at h
  cases h
  rfl

end Channel

/-! ## What is heard of a request -/

/-- It lists before it waits again, or has ended. -/
def ReconcilerPosition.owesList : ReconcilerPosition → Bool
  | listing => true
  | coalescing => true
  | draining => true
  | stopped => true
  | _ => false

/-- A request is in the channel, or was taken for a `store.List` to come. -/
def ReconcilerConfiguration.OnItsWay (c : ReconcilerConfiguration) : Prop :=
  c.requested ∨ c.position.owesList

/-- **Every request** is on its way, or was made before the latest `store.List`. -/
structure Heard (env : Env) (c : ReconcilerConfiguration) : Prop where
  enabled : env.cfg.eventSubEnabled ∨ c.position = .stopped
  heard : ∀ e old, e :: old <:+ c.server.hist → e.op = .env .requestEventSubReconcile →
    c.OnItsWay ∨ e :: old <:+ c.listed

section Steps

variable {env : Env} {may : ServerView → Task → Bool} {c c' : ReconcilerConfiguration} {w : World}
  {position : ReconcilerPosition}

theorem heard_initial (env : Env) (w : World) : Heard env (.initial env w) where
  enabled := by
    unfold ReconcilerConfiguration.initial
    split_ifs with h
    · exact .inl h
    · exact .inr rfl
  heard := by
    intro e old hsuf
    cases List.suffix_nil.mp hsuf

theorem Heard.enabled_at (h : Heard env c) (hpos : c.position = position)
    (hne : position ≠ .stopped) : env.cfg.eventSubEnabled :=
  h.enabled.resolve_right fun hstopped => hne (hpos.symm.trans hstopped)

theorem heard_of_owesList (hon : env.cfg.eventSubEnabled ∨ c.position = .stopped)
    (hpos : c.position.owesList) : Heard env c :=
  ⟨hon, fun _ _ _ _ => .inl (.inr hpos)⟩

theorem Heard.call {x : Choice} (h : Heard env c) (hcall : c.call env x = some c') :
    Heard env c' := by
  unfold ReconcilerConfiguration.call at hcall
  split at hcall
  · rename_i hpos
    split at hcall
    · cases hcall
      exact ⟨.inl (h.enabled_at hpos nofun), fun e old hsuf _ => .inr hsuf⟩
    · cases hcall
  · rename_i op k hpos
    split at hcall
    · rename_i a w hexec
      cases hcall
      refine ⟨.inl (h.enabled_at hpos nofun), ?_⟩
      intro e old hsuf hop
      rcases h.heard e old hsuf hop with (hreq | howes) | hlist
      · exact .inl (.inl (exec_reconcileRequested hexec hreq))
      · rw [hpos] at howes
        cases howes
      · exact .inr hlist
    · cases hcall
  · cases hcall

theorem Heard.server {move : System.Move Task Choice} {server : ServerConfiguration}
    (h : Heard env c)
    (hmove : (Ferventio.server env may).advance (fun _ _ _ _ => true) c.server move = some server) :
    Heard env { c with server } := by
  refine ⟨h.enabled, ?_⟩
  cases System.advance_step hmove with
  | spawn => exact h.heard
  | call pid t op k x a s hproc hexec =>
    have hexec' : exec env op x c.server.state = some (a, s) := hexec
    intro e old hsuf hop
    rcases List.suffix_cons_iff.mp hsuf with heq | hsuf
    · cases heq
      rcases h.enabled with hon | hstopped
      · cases hop
        exact .inl (.inl (exec_requestEventSubReconcile hexec' hon))
      · refine .inl (.inr ?_)
        show c.position.owesList
        rw [hstopped]
        rfl
    · rcases h.heard e old hsuf hop with (hreq | howes) | hlist
      · exact .inl (.inl (exec_reconcileRequested hexec' hreq))
      · exact .inl (.inr howes)
      · exact .inr hlist

theorem Heard.advance {move : ReconcilerMove} (h : Heard env c)
    (hmove : c.advance env may move = some c') : Heard env c' := by
  cases move with
  | server move =>
    simp only [ReconcilerConfiguration.advance] at hmove
    split at hmove
    · rename_i server hserver
      cases hmove
      exact h.server hserver
    · cases hmove
  | call => exact h.call hmove
  | done =>
    simp only [ReconcilerConfiguration.advance] at hmove
    split at hmove
    · cases hmove
      exact heard_of_owesList (.inr rfl) rfl
    · cases hmove
      exact heard_of_owesList (.inr rfl) rfl
    · cases hmove
  | receive =>
    simp only [ReconcilerConfiguration.advance] at hmove
    split at hmove
    · rename_i hpos _
      cases hmove
      exact heard_of_owesList (.inl (h.enabled_at hpos nofun)) rfl
    · cases hmove
  | drain =>
    simp only [ReconcilerConfiguration.advance] at hmove
    split at hmove
    · rename_i hpos _
      cases hmove
      refine heard_of_owesList (.inl (h.enabled_at hpos nofun)) ?_
      show c.position.owesList
      rw [hpos]
      rfl
    · rename_i hpos _
      cases hmove
      exact heard_of_owesList (.inl (h.enabled_at hpos nofun)) rfl
    · cases hmove
  | _ =>
    simp only [ReconcilerConfiguration.advance] at hmove
    split at hmove
    · rename_i hpos
      cases hmove
      exact heard_of_owesList (.inl (h.enabled_at hpos nofun)) rfl
    · cases hmove

theorem Heard.play {moves : List ReconcilerMove} (h : Heard env c)
    (hplay : c.play env may moves = some c') : Heard env c' := by
  induction moves generalizing c with
  | nil =>
    cases hplay
    exact h
  | cons move moves ih =>
    rw [ReconcilerConfiguration.play] at hplay
    split at hplay
    · rename_i c1 hmove
      exact ih (h.advance hmove) hplay
    · cases hplay

end Steps

/-! ## Requested changes -/

/-- The call writes registrations. -/
def changesRegistrations : Call → Bool
  | .registration (.upsert _) => true
  | .registration (.delete _ _) => true
  | .registration (.deleteForAccount _ _) => true
  | _ => false

/-- The call `e` changes the registrations, and its task has then made a request. -/
structure Requested (hist : List ServerEvent) (e : ServerEvent)
    (old : List ServerEvent) : Prop where
  change : changesRegistrations e.op
  request : ∃ e' old', e' :: old' <:+ hist ∧ e'.op = .env .requestEventSubReconcile ∧
    e'.pid = e.pid ∧ e :: old <:+ old'

/-- **No request is lost**: when the reconciler waits and the channel is empty, its latest
`store.List` came after every change of the registrations that was requested. -/
theorem no_reconcile_request_lost {env : Env} {may : ServerView → Task → Bool} {w : World}
    {moves : List ReconcilerMove} {c : ReconcilerConfiguration}
    (hplay : (ReconcilerConfiguration.initial env w).play env may moves = some c)
    (hwaiting : c.position = .waiting) (hempty : c.requested = false) {e : ServerEvent}
    {old : List ServerEvent} (hreq : Requested c.server.hist e old) :
    e :: old <:+ c.listed := by
  obtain ⟨e', old', hsuf, hop, -, hearlier⟩ := hreq.request
  rcases ((heard_initial env w).play hplay).heard e' old' hsuf hop with (hfull | howes) | hlist
  · rw [hempty] at hfull
    cases hfull
  · rw [hwaiting] at howes
    cases howes
  · exact (hearlier.trans (List.suffix_cons e' old')).trans hlist

/-- The phone's registration is deleted, and the reconciler takes the request. -/
def deletionMoves : List ReconcilerMove :=
  let unanswered : Choice := { failure := some (.plain "timeout") }
  [.call {}, .call unanswered] ++
    (start (.deleteRegistration "phone" phoneSecret) ++ calls 0 4 {}).map .server ++
    [.receive, .timer, .drain, .call {}, .call unanswered]

/-- A call of the deletion. -/
def deletionCall (op : Call) (ans : op.Ans) : ServerEvent :=
  ⟨0, .deleteRegistration "phone" phoneSecret, op, ans⟩

/-- The phone is deleted. -/
def phoneDeleted : ServerEvent :=
  deletionCall (.registration (.delete "phone" phoneSecret)) (.ok ())

theorem deletionMoves_play :
    ∃ c, (ReconcilerConfiguration.initial .mem phoneOnline).play .mem
        (fun _ _ => true) deletionMoves = some c ∧
      c.position = .waiting ∧ c.requested = false ∧
      c.server.hist = [deletionCall (.env .requestEventSubReconcile) (),
        deletionCall (.env (.respond 204 "")) (), deletionCall (.hub (.close "phone")) (),
        phoneDeleted] :=
  ⟨_, rfl, rfl, rfl, rfl⟩

/-- The deletion was made before the latest `store.List`. -/
theorem deleted_registration_listed :
    ∃ c, (ReconcilerConfiguration.initial .mem phoneOnline).play .mem
        (fun _ _ => true) deletionMoves = some c ∧ [phoneDeleted] <:+ c.listed := by
  obtain ⟨c, hplay, hwaiting, hempty, hhist⟩ := deletionMoves_play
  refine ⟨c, hplay, no_reconcile_request_lost hplay hwaiting hempty ⟨rfl, ?_⟩⟩
  rw [hhist]
  exact ⟨_, _, List.suffix_rfl, rfl, rfl, List.suffix_append [_, _] [phoneDeleted]⟩

end Ferventio
