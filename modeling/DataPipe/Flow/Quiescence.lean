import DataPipe.Flow.Slots
import DataPipe.Foundation.Dict
import Mathlib.Data.Finset.Card

/-!
# The tracker left to itself

Without a new call from outside the tracker takes the steps of the calls in progress and fires
timers.  Every such step lowers a rank, so the tracker comes to rest.  At rest an execution that
was inserted and is guarded by a timer has been reported finished, is not active any more and
holds no slot, provided that no release is left waiting.
-/

namespace DataPipe.Flow

open DataPipe.Foundation

def Action.internal : Action → Bool
  | .proceed _ _ | .fire _ => true
  | .call _ | .abort _ => false

def Pc.rank : Pc → Nat
  | .startEnter _ => 16
  | .startEval _ => 15
  | .startTry _ _ => 14
  | .startFull _ => 13
  | .startWaiting _ => 12
  | .startEvalWait _ => 11
  | .startBlocked _ _ => 10
  | .startInsert _ _ => 9
  | .eventEnter _ | .cancelEnter _ _ | .timeoutEnter _ _ => 6
  | .eventSink _ _ => 5
  | .release _ => 4
  | .releaseEval _ => 3
  | .releaseRecv _ _ | .reconfIdle _ => 2
  | .startStarted _ _ | .finish _ | .reconfSwap _ => 1
  | .returned _ => 0

namespace Pc

variable {pc : Pc} {id : String}

theorem starting_of_acquired (h : pc.acquired = some id) : pc.starting = some id := by
  cases pc <;> simp_all [acquired, starting]

theorem finishing_of_releasing (h : pc.releasing = some id) : pc.finishing = some id := by
  cases pc <;> simp_all [releasing, finishing]

end Pc

namespace Tracker

variable {t t' : Tracker} {id : String} {pc pc' : Pc} {now : Time}

theorem rank_advance (hstep : t.advance now pc = some (t', pc')) : pc'.rank < pc.rank := by
  cases pc <;> simp only [Tracker.advance] at hstep <;> grind [Pc.rank]

inductive Tables (t t' : Tracker) (pc : Pc) : Prop where
  | same (hactive : t'.active.keys = t.active.keys) (htimers : t'.timers = t.timers)
      (hlate : ∀ flowID id, pc = .timeoutEnter flowID id → id ∉ t.active.keys)
  | insert (call : StartCall) (token : Option Nat) (hpc : pc = .startInsert call token)
      (hinsert : t' = t.startLocked call)
  | remove (id : String) (hactive : t'.active.keys = t.active.keys.erase id)
      (htimers : t'.timers = t.timers.erase id)
      (hown : ∀ flowID other, pc = .timeoutEnter flowID other → other = id)

theorem tables_nodeEventLocked {call : EventCall} {done : Option ExecState}
    (hlocked : t.nodeEventLocked call = some (t', done)) : t.Tables t' (.eventEnter call) := by
  revert hlocked
  fun_cases t.nodeEventLocked call <;> rintro ⟨⟩
  · exact .remove call.id (AList.keys_erase _ _) rfl (by simp)
  · exact .same (AList.keys_replace _ _ _) rfl (by simp)

theorem tables_removeLocked (hlocked : t.removeLocked id = some t')
    (hown : ∀ flowID other, pc = .timeoutEnter flowID other → other = id) : t.Tables t' pc := by
  revert hlocked
  fun_cases t.removeLocked id <;> rintro ⟨⟩
  exact .remove id (AList.keys_erase _ _) rfl hown

theorem notMem_of_removeLocked (hlocked : t.removeLocked id = none) : id ∉ t.active.keys := by
  intro hmem
  obtain ⟨st, hst⟩ :=
    Option.isSome_iff_exists.mp (AList.lookup_isSome.mpr (AList.mem_keys.mpr hmem))
  simp [removeLocked, hst] at hlocked

variable {ch : Option Nat}

theorem timers_sendOn (hsend : t.sendOn ch id = some t') : t'.timers = t.timers := by
  unfold sendOn at hsend
  grind [record]

theorem timers_receiveOn (hreceive : t.receiveOn ch id = some t') : t'.timers = t.timers := by
  unfold receiveOn at hreceive
  grind [record]

theorem tables_advance (hstep : t.advance now pc = some (t', pc')) : t.Tables t' pc := by
  cases advances_of_advance hstep with
  | taken call ch hsend | unblocked call ch hsend =>
    obtain ⟨k, sem, sem', -, -, -, hsets⟩ := sendOn_spec hsend
    exact .same (congrArg _ hsets.active_eq) (timers_sendOn hsend) (by simp)
  | inserted call token => exact .insert call token rfl rfl
  | accepted call done hlocked => exact tables_nodeEventLocked hlocked
  | cancelled flowID id hlocked => exact tables_removeLocked hlocked (by simp)
  | notTimedOut flowID id hlocked =>
    refine .same rfl rfl ?_
    rintro flowID other ⟨⟩
    exact notMem_of_removeLocked hlocked
  | timedOut flowID id hlocked =>
    refine tables_removeLocked hlocked ?_
    rintro flowID other ⟨⟩
    rfl
  | released c ch hreceive =>
    obtain ⟨k, sem, owner, sem', -, -, -, hsets⟩ := receiveOn_spec hreceive
    exact .same (congrArg _ hsets.active_eq) (timers_receiveOn hreceive) (by simp)
  | _ => exact .same rfl rfl (by simp)

def armed (t : Tracker) : Finset String :=
  t.timers.keys.toFinset.filter fun id => (t.timers.lookup id).any Timer.armed

theorem mem_armed : id ∈ t.armed ↔ ∃ flowID, t.timers.lookup id = some ⟨flowID, true⟩ := by
  simp only [armed, Finset.mem_filter, List.mem_toFinset]
  constructor
  · rintro ⟨-, hany⟩
    obtain ⟨timer, htimer, harmed⟩ := (Option.any_eq_true _ _).mp hany
    obtain ⟨flowID, armed⟩ := timer
    cases harmed
    exact ⟨flowID, htimer⟩
  · rintro ⟨flowID, htimer⟩
    refine ⟨AList.mem_keys.mp (AList.lookup_isSome.mp (by simp [htimer])), ?_⟩
    simp [htimer]

theorem armed_erase (htimers : t'.timers = t.timers.erase id) : t'.armed ⊆ t.armed := by
  intro other hother
  obtain ⟨flowID, hlookup⟩ := mem_armed.mp hother
  rw [htimers] at hlookup
  exact mem_armed.mpr ⟨flowID, (lookup_erase_eq_some hlookup).2⟩

theorem armed_startLocked (t : Tracker) (call : StartCall) :
    (t.startLocked call).armed ⊆ insert call.id t.armed := by
  intro other hother
  obtain ⟨flowID, hlookup⟩ := mem_armed.mp hother
  by_cases hid : other = call.id
  · exact hid ▸ Finset.mem_insert_self _ _
  · refine Finset.mem_insert_of_mem (mem_armed.mpr ⟨flowID, ?_⟩)
    simp only [startLocked] at hlookup
    split at hlookup
    · rwa [AList.lookup_insert_ne hid] at hlookup
    · exact hlookup

theorem armed_fired {flowID : String} (hlookup : t.timers.lookup id = some ⟨flowID, true⟩) :
    armed { t with timers := t.timers.replace id ⟨flowID, false⟩ } ⊆ t.armed.erase id := by
  have hkey : id ∈ t.timers := AList.lookup_isSome.mp (by simp [hlookup])
  intro other hother
  obtain ⟨otherFlow, hother⟩ := mem_armed.mp hother
  rw [lookup_replace hkey] at hother
  split at hother
  case isTrue => cases hother
  case isFalse hne => exact Finset.mem_erase.mpr ⟨hne, mem_armed.mpr ⟨otherFlow, hother⟩⟩

theorem card_armed_advance (hstep : t.advance now pc = some (t', pc')) :
    7 * t'.armed.card + pc'.rank < 7 * t.armed.card + pc.rank := by
  have hrank := rank_advance hstep
  cases tables_advance hstep with
  | same hactive htimers _ =>
    simp only [armed, htimers]
    omega
  | insert call token hpc hinsert =>
    subst hpc hinsert
    cases hstep
    have hcard := (Finset.card_le_card (t.armed_startLocked call)).trans
      (Finset.card_insert_le _ _)
    simp only [Pc.rank]
    omega
  | remove id hactive htimers _ =>
    have hcard := Finset.card_le_card (armed_erase htimers)
    omega

end Tracker

namespace System

def rank (s : System) : Nat := 7 * s.tracker.armed.card + (s.threads.map Pc.rank).sum

variable {action : Action} {s s' : System}

theorem rank_step (hinternal : action.internal = true) (hstep : s.step action = some s') :
    s'.rank < s.rank := by
  cases steps_of_step hstep with
  | spawn | start | abort => contradiction
  | @proceed _ _ _ pc' _ hpc hadvance =>
    have hsum := sum_map_set Pc.rank hpc pc'
    have hcard := Tracker.card_armed_advance hadvance
    simp only [rank]
    omega
  | @fire id flowID hlookup =>
    have hmem : id ∈ s.tracker.armed := Tracker.mem_armed.mpr ⟨flowID, hlookup⟩
    have hcard := Finset.card_le_card (Tracker.armed_fired hlookup)
    rw [Finset.card_erase_of_mem hmem] at hcard
    have hpos := Finset.card_pos.mpr ⟨id, hmem⟩
    simp only [rank, List.map_append, List.sum_append, List.map_cons, List.map_nil,
      List.sum_cons, List.sum_nil, Pc.rank]
    omega

structure Watched (s : System) : Prop where
  active : ∀ id ∈ s.tracker.timers, id ∈ s.tracker.active.keys
  fired : ∀ id flowID, s.tracker.timers.lookup id = some ⟨flowID, false⟩ →
    ∃ flowID, .timeoutEnter flowID id ∈ s.threads

theorem watched_start (maxConcurrency : Int) (reject : Bool) (timeout : Int) :
    (start (.newTracker maxConcurrency reject timeout)).Watched where
  active _ hmem := absurd hmem (AList.notMem_empty _)
  fired _ _ hlookup := by simp [start, Tracker.newTracker] at hlookup

section Watched

variable {s : System}

theorem watched_advance {index : Nat} {now : Time} {pc pc' : Pc} {t' : Tracker}
    (hwatched : s.Watched) (hpc : s.threads[index]? = some pc)
    (hadvance : s.tracker.advance now pc = some (t', pc')) :
    Watched { s with tracker := t', threads := s.threads.set index pc' } := by
  -- the thread of a fired timer is still there unless it is the one that moved
  have hstays : ∀ id flowID, s.tracker.timers.lookup id = some ⟨flowID, false⟩ →
      (∀ flowID, pc ≠ .timeoutEnter flowID id) →
      ∃ flowID, .timeoutEnter flowID id ∈ s.threads.set index pc' := by
    intro id flowID hlookup hne
    obtain ⟨other, hthread⟩ := hwatched.fired id flowID hlookup
    exact ⟨other, mem_set_of_ne hpc hthread (hne other).symm pc'⟩
  cases Tracker.tables_advance hadvance with
  | same hactive htimers hlate =>
    refine ⟨?_, ?_⟩ <;> simp only [htimers, hactive]
    · exact hwatched.active
    · intro id flowID hlookup
      refine hstays id flowID hlookup ?_
      rintro other rfl
      exact hlate other id rfl (hwatched.active id (AList.lookup_isSome.mp (by simp [hlookup])))
  | insert call token hinsert ht' =>
    subst hinsert ht'
    refine ⟨?_, ?_⟩
    · intro id hid
      simp only [Tracker.startLocked] at hid ⊢
      rw [← AList.mem_keys, AList.mem_insert]
      split at hid
      · rcases (AList.mem_insert _).mp hid with hnew | hold
        · exact .inl hnew
        · exact .inr (hwatched.active id hold)
      · exact .inr (hwatched.active id hid)
    · intro id flowID hlookup
      refine hstays id flowID ?_ (by simp)
      simp only [Tracker.startLocked] at hlookup
      split at hlookup
      · rcases lookup_insert_eq_some hlookup with ⟨-, hvalue⟩ | hold
        · cases hvalue
        · exact hold
      · exact hlookup
  | remove id hactive htimers hown =>
    refine ⟨?_, ?_⟩ <;> simp only [htimers, hactive]
    · intro other hother
      obtain ⟨hne, hmem⟩ := AList.mem_erase.mp hother
      exact (List.mem_erase_of_ne hne).mpr (hwatched.active other hmem)
    · intro other flowID hlookup
      obtain ⟨hne, hold⟩ := lookup_erase_eq_some hlookup
      refine hstays other flowID hold ?_
      rintro thread rfl
      exact hne (hown thread other rfl)

theorem watched_spawn (hwatched : s.Watched) (pc : Pc) (used : List String) :
    Watched { s with threads := s.threads ++ [pc], used := used } := by
  refine ⟨hwatched.active, ?_⟩
  intro id flowID hlookup
  obtain ⟨other, hthread⟩ := hwatched.fired id flowID hlookup
  exact ⟨other, List.mem_append_left _ hthread⟩

end Watched

theorem watched_step (hwatched : s.Watched) (hstep : s.step action = some s') : s'.Watched := by
  cases steps_of_step hstep with
  | @spawn _ pc => exact watched_spawn hwatched pc s.used
  | @start call => exact watched_spawn hwatched (.startEnter call) (call.id :: s.used)
  | proceed hpc hadvance => exact watched_advance hwatched hpc hadvance
  | abort hpc =>
    refine ⟨hwatched.active, ?_⟩
    intro id flowID hlookup
    obtain ⟨other, hthread⟩ := hwatched.fired id flowID hlookup
    exact ⟨other, mem_set_of_ne hpc hthread nofun _⟩
  | @fire id flowID hlookup =>
    have hkey : id ∈ s.tracker.timers := AList.lookup_isSome.mp (by simp [hlookup])
    refine ⟨?_, ?_⟩
    · intro other hother
      exact hwatched.active other (AList.mem_replace.mp hother)
    · intro other otherFlow hother
      rw [lookup_replace hkey] at hother
      split at hother
      case isTrue heq => exact ⟨flowID, heq ▸ List.mem_append_right _ (List.mem_singleton_self _)⟩
      case isFalse =>
        obtain ⟨thread, hthread⟩ := hwatched.fired other otherFlow hother
        exact ⟨thread, List.mem_append_left _ hthread⟩

def Quiescent (s : System) : Prop :=
  ∀ action, action.internal = true → s.step action = none

structure Resolved (s : System) (id : String) : Prop where
  finished : s.tracker.finishedCount id = 1
  inactive : id ∉ s.tracker.active.keys
  slotless : ∀ k, s.tracker.tokensAt k id = 0

section Rest

variable {s : System} {thread : Nat} {pc : Pc} {id : String}

theorem quiescent_of_rank_eq_zero (hrank : s.rank = 0) : s.Quiescent := by
  intro action hinternal
  cases hstep : s.step action with
  | none => rfl
  | some next =>
    have := rank_step hinternal hstep
    omega

theorem Quiescent.advance_eq_none (hquiet : s.Quiescent)
    (hpc : s.threads[thread]? = some pc) : s.tracker.advance 0 pc = none := by
  have hnone := hquiet (.proceed thread 0) rfl
  cases hadvance : s.tracker.advance 0 pc with
  | none => rfl
  | some next => simp [step, advanceAt, hpc, hadvance] at hnone

theorem Quiescent.not_finishing (hquiet : s.Quiescent) (hslots : s.Slots)
    (hpc : s.threads[thread]? = some pc) : pc.finishing ≠ some id := by
  have hnone := hquiet.advance_eq_none hpc
  intro hfinishing
  cases pc with
  | eventSink call done => cases done <;> contradiction
  | release c =>
    simp only [Tracker.advance] at hnone
    split at hnone <;> contradiction
  | releaseRecv c ch =>
    obtain ⟨next, hnext⟩ := hslots.releaseNeverBlocks thread c ch hpc 0
    rw [hquiet _ rfl] at hnext
    contradiction
  | _ => contradiction

theorem Quiescent.notMem_timers (hquiet : s.Quiescent) (hwatched : s.Watched) :
    id ∉ s.tracker.timers := by
  intro hmem
  obtain ⟨timer, htimer⟩ := Option.isSome_iff_exists.mp (AList.lookup_isSome.mpr hmem)
  obtain ⟨flowID, armed⟩ := timer
  cases armed with
  | true =>
    have hnone := hquiet (.fire id) rfl
    simp [step, fire, htimer] at hnone
  | false =>
    obtain ⟨other, hthread⟩ := hwatched.fired id flowID htimer
    obtain ⟨index, hindex⟩ := List.mem_iff_getElem?.mp hthread
    have hnone := hquiet.advance_eq_none hindex
    simp only [Tracker.advance] at hnone
    split at hnone <;> cases hnone

theorem Quiescent.resolved (hquiet : s.Quiescent) (haccounted : s.Accounted)
    (hwatched : s.Watched) (hinserted : s.tracker.insertedCount id = 1)
    (hguarded : id ∈ s.tracker.active.keys → id ∈ s.tracker.timers) : s.Resolved id := by
  obtain ⟨hlife, hslots⟩ := haccounted
  have hinactive : id ∉ s.tracker.active.keys :=
    fun hmem => hquiet.notMem_timers hwatched (hguarded hmem)
  have hactive : s.tracker.activeCount id = 0 := List.count_eq_zero_of_not_mem hinactive
  have hfinishing : tally Pc.finishing s.threads id = 0 := by
    refine Nat.eq_zero_of_not_pos fun hpos => ?_
    obtain ⟨pc, hpc, hid⟩ := tally_pos_iff.mp hpos
    obtain ⟨index, hindex⟩ := List.mem_iff_getElem?.mp hpc
    exact hquiet.not_finishing hslots hindex hid
  have haccount := hlife.accounted id
  have hfresh := hlife.fresh id
  refine ⟨by omega, hinactive, ?_⟩
  intro k
  by_cases hk : s.tracker.sem = some k
  · have hacquired : tally Pc.acquired s.threads id ≤ tally Pc.starting s.threads id :=
      tally_le_tally (fun _ => Pc.starting_of_acquired) s.threads
    have hreleasing : tally Pc.releasing s.threads id ≤ tally Pc.finishing s.threads id :=
      tally_le_tally (fun _ => Pc.finishing_of_releasing) s.threads
    rw [hslots.balance k id hk]
    omega
  · exact hslots.retired k id hk

end Rest

end System

/--
Whatever a swap of the semaphore does to the slots, an execution has one outcome at most, no event
is accepted after it, and a timer is that of an active execution.
-/
theorem outcomes_survive_any_swap (maxConcurrency : Int) (reject : Bool) (timeout : Int)
    (actions : List Action) {s : System}
    (hrun : run System.step (.start (.newTracker maxConcurrency reject timeout)) actions = some s) :
    s.FinishedOnce ∧ NoLateAccept s.tracker.trace ∧ s.Watched := by
  have hlife := run_invariant System.lifecycle_step
    (System.lifecycle_start maxConcurrency reject timeout) hrun
  have hwatched := run_invariant System.watched_step
    (System.watched_start maxConcurrency reject timeout) hrun
  exact ⟨hlife.finishedOnce, hlife.noLateAccept, hwatched⟩

theorem swapUnderStart_one_outcome :
    ∃ s, run System.step (.start (.newTracker 1 false 0)) swapUnderStart = some s ∧
      s.FinishedOnce :=
  ⟨_, rfl, (outcomes_survive_any_swap 1 false 0 swapUnderStart rfl).1⟩

end DataPipe.Flow
