import Ferventio.Domain
import Ferventio.Lib.WorkerPool

/-!
# The worker pools of the server

`flushPendingInstallations` flushes the queues of all installations, and `createChatSubscriptions`
subscribes to the chats of all channels, each with a pool of workers. The first watches its context.
The second does not, and its workers send their errors to a channel with room for all.

* **`worker_pools_finish`**: they return, and what they have done then.
-/

namespace Ferventio

open Relation WorkerPool List

/-! ## The code -/

/-- The workers of a flush. -/
def deliveryWorkerConcurrency : Nat := 8

/-- The pool of a flush. -/
def flushPendingInstallations (registrations : List Registration) : Pool String Unit :=
  .start (registrations.map (·.installationID)) deliveryWorkerConcurrency

/-- A step of that pool. -/
def FlushStep : Pool String Unit → Pool String Unit → Prop := Step true fun _ _ => true

/-- The errors of the calls. -/
def failures (calls : List (String × Result Unit)) : List GoError :=
  calls.filterMap fun
    | (_, .error err) => some err
    | (_, .ok ()) => none

/-- Room for one error of each channel. -/
def errorsRoom (channels : List String) (calls : List (String × Result Unit)) :
    Result Unit → Bool
  | .ok () => true
  | .error _ => (failures calls).length < channels.length

/-- The states of `createChatSubscriptions`: before the first call, with a pool for the others, and
at the end. -/
inductive ChatSubscriptions
  | first (channels : List String)
  | working (channel : String) (channels : List String) (pool : Pool String (Result Unit))
  | returned (calls : List (String × Result Unit)) (workers : List (Worker String (Result Unit)))
      (result : Result Unit)

/-- The context does nothing but make calls fail. -/
inductive ChatStep : ChatSubscriptions → ChatSubscriptions → Prop
  | none : ChatStep (.first []) (.returned [] [] (.ok ()))
  | refused (channel : String) (channels : List String) (err : GoError) :
      ChatStep (.first (channel :: channels)) (.returned [(channel, .error err)] [] (.error err))
  | only (channel : String) :
      ChatStep (.first [channel]) (.returned [(channel, .ok ())] [] (.ok ()))
  | start (channel : String) {channels : List String} (hmore : channels ≠ []) :
      ChatStep (.first (channel :: channels)) (.working channel channels (.start channels 4))
  | work {channel : String} {channels : List String} {p p' : Pool String (Result Unit)}
      (hstep : Step false (errorsRoom channels) p p') (hsame : p'.cancelled = p.cancelled) :
      ChatStep (.working channel channels p) (.working channel channels p')
  | wait {channel : String} {channels : List String} {p : Pool String (Result Unit)}
      (hret : p.Returned) :
      ChatStep (.working channel channels p)
        (.returned ((channel, .ok ()) :: p.done) p.workers (joinErrors (failures p.done)))

/-! ## Chat subscriptions -/

/-- The steps that are left. -/
def ChatSubscriptions.measure : ChatSubscriptions → Nat
  | first channels => (Pool.start channels.tail 4 : Pool String (Result Unit)).measure + 2
  | working _ _ pool => pool.measure + 1
  | returned _ _ _ => 0

theorem wellFounded_chatStep : WellFounded fun c' c => ChatStep c c' := by
  refine Subrelation.wf (fun {c' c} h => ?_) (measure ChatSubscriptions.measure).wf
  cases h with
  | none | refused | only | wait => exact Nat.succ_pos _
  | start channel => exact Nat.lt_succ_self _
  | work hstep => exact Nat.succ_lt_succ (measure_decreases hstep)

theorem length_failures_le (calls : List (String × Result Unit)) :
    (failures calls).length ≤ calls.length := length_filterMap_le _ _

theorem failures_eq_nil_iff {calls : List (String × Result Unit)} :
    failures calls = [] ↔ ∀ call ∈ calls, call.2 = .ok () := by
  rw [failures, filterMap_eq_nil_iff]
  refine forall₂_congr fun call _ => ?_
  obtain ⟨channel, err | u⟩ := call
  · simp
  · simp

/-- What holds in every state of `createChatSubscriptions`. -/
def ChatSubscriptions.Sound (channels : List String) : ChatSubscriptions → Prop
  | first channels' => channels' = channels
  | working channel more pool => channels = channel :: more ∧ pool.Fair false more
  | returned calls workers result =>
    (∀ worker ∈ workers, worker = .ended) ∧ (calls.map Prod.fst).Subperm channels ∧
      (result = .ok () ↔ (calls.map Prod.fst).Perm channels ∧ ∀ call ∈ calls, call.2 = .ok ())

theorem ChatSubscriptions.Sound.step {channels : List String} {c c' : ChatSubscriptions}
    (h : c.Sound channels) (hstep : ChatStep c c') : c'.Sound channels := by
  cases hstep with
  | none =>
    obtain rfl : [] = channels := h
    exact ⟨nofun, .refl _, iff_of_true rfl ⟨.refl _, nofun⟩⟩
  | refused channel more err =>
    obtain rfl : channel :: more = channels := h
    refine ⟨nofun, ?_, iff_of_false nofun fun hall => nomatch hall.2 _ mem_cons_self⟩
    exact ((nil_sublist more).cons_cons channel).subperm
  | only channel =>
    obtain rfl : [channel] = channels := h
    exact ⟨nofun, .refl _, iff_of_true rfl ⟨.refl _, by simp⟩⟩
  | start channel => exact ⟨h.symm, fair_start _ (by decide)⟩
  | work hstep => exact ⟨h.1, h.2.step hstep⟩
  | wait hret =>
    obtain ⟨rfl, hfair⟩ := h
    have hperm := hfair.handled_perm hret rfl
    refine ⟨hret.2, (hperm.cons _).subperm, ?_⟩
    rw [forall_mem_cons, ← failures_eq_nil_iff]
    constructor
    · exact fun hok => ⟨hperm.cons _, rfl, joinErrors_eq_ok hok⟩
    · rintro ⟨-, -, hnil⟩
      rw [hnil]
      rfl

theorem ChatSubscriptions.Sound.progress {channels : List String} {c : ChatSubscriptions}
    (h : c.Sound channels) :
    (∃ calls workers result, c = .returned calls workers result) ∨ ∃ c', ChatStep c c' := by
  cases c with
  | first channels' =>
    match channels' with
    | [] => exact .inr ⟨_, .none⟩
    | [channel] => exact .inr ⟨_, .only channel⟩
    | channel :: next :: more => exact .inr ⟨_, .start channel (cons_ne_nil next more)⟩
  | working channel more pool =>
    have hroom : ∀ done y, done.length < more.length → errorsRoom more done y := by
      intro done y hdone
      cases y with
      | ok => rfl
      | error err => exact decide_eq_true ((length_failures_le done).trans_lt hdone)
    rcases h.2.progress hroom (.ok ()) with hret | ⟨pool', hstep, hsame⟩
    · exact .inr ⟨_, .wait hret⟩
    · exact .inr ⟨_, .work hstep hsame⟩
  | returned calls workers result => exact .inl ⟨calls, workers, result, rfl⟩

/-- **The worker pools finish**, whatever the context does. No item is handled twice. Without a
cancellation every installation is flushed once, and the error of the chat subscriptions is nil
exactly when each channel was subscribed to. -/
theorem worker_pools_finish :
    (∀ registrations : List Registration, (WellFounded fun p' p => FlushStep p p') ∧
      ∀ p, ReflTransGen FlushStep (flushPendingInstallations registrations) p →
        (p.Returned ∨ ∃ p', FlushStep p p' ∧ p'.cancelled = p.cancelled) ∧
        (p.done.map Prod.fst ++ p.workers.flatMap Worker.held).Subperm
          (registrations.map (·.installationID)) ∧
        (p.Returned → p.cancelled = false →
          (p.done.map Prod.fst).Perm (registrations.map (·.installationID)))) ∧
    ∀ channels : List String, (WellFounded fun c' c => ChatStep c c') ∧
      ∀ c, ReflTransGen ChatStep (.first channels) c →
        ((∃ calls workers result, c = .returned calls workers result) ∨ ∃ c', ChatStep c c') ∧
        (∀ channel more pool, c = .working channel more pool →
          (channel :: (pool.done.map Prod.fst ++ pool.workers.flatMap Worker.held)).Subperm
            channels) ∧
        ∀ calls workers result, c = .returned calls workers result →
          (∀ worker ∈ workers, worker = .ended) ∧ (calls.map Prod.fst).Subperm channels ∧
            (result = .ok () ↔
              (calls.map Prod.fst).Perm channels ∧ ∀ call ∈ calls, call.2 = .ok ()) := by
  refine ⟨fun registrations => ⟨wellFounded_step, fun p hp => ?_⟩,
    fun channels => ⟨wellFounded_chatStep, fun c hc => ?_⟩⟩
  · have hfair := fair_of_reached (by decide) hp
    exact ⟨hfair.progress (fun _ _ _ => rfl) (), hfair.handled_subperm,
      fun hret hcancel => hfair.handled_perm hret hcancel⟩
  · have hsound : c.Sound channels := by
      induction hc with
      | refl => rfl
      | tail _ hstep ih => exact ih.step hstep
    refine ⟨hsound.progress, ?_, ?_⟩
    · rintro channel more pool rfl
      obtain ⟨rfl, hfair⟩ := hsound
      exact subperm_cons channel |>.2 hfair.handled_subperm
    · rintro calls workers result rfl
      exact hsound

end Ferventio
