import DataPipe.Flow.Lifecycle

/-!
# Concurrency slots of the execution tracker

Every token of the current semaphore belongs to an active execution, to a
`Start` that has not inserted yet or to a finisher that has not released yet.
Every step keeps this that does not swap the semaphore under a thread that
still relies on it.
-/

namespace DataPipe.Flow

open DataPipe.Foundation

/-! ## Tokens -/

namespace Event

def acquiredAt : Event → Option (String × Nat)
  | .acquired id k => some (id, k)
  | _ => none

def releasedAt : Event → Option (String × Nat)
  | .released id k _ => some (id, k)
  | _ => none

end Event

variable {action : Action} {s : System} {now : Time} {t' : Tracker} {pc : Pc}

namespace Pc

/-- What a thread took from the field `sem` is still what the field holds. -/
def Agrees (sem : Option Nat) : Pc → Prop
  | .startTry _ ch | .startBlocked _ ch => ch = none ∨ ch = sem
  | .startInsert _ token => token = sem
  | .releaseEval _ => sem ≠ none
  | .releaseRecv _ ch => ch = sem ∧ sem ≠ none
  | _ => True

def quiet : Pc → Bool
  | .startTry _ ch | .startBlocked _ ch => ch.isNone
  | .startInsert _ _ => false
  | pc => pc.releasing.isNone

theorem agrees_of_quiet (hquiet : pc.quiet = true) (sem : Option Nat) : pc.Agrees sem := by
  cases pc <;> simp_all [quiet, Agrees, releasing]

theorem owns_of_quiet (hquiet : pc.quiet = true) : pc.acquired = none ∧ pc.releasing = none := by
  cases pc <;> simp_all [quiet, acquired, releasing]

end Pc

namespace Tracker

def tokensAt (t : Tracker) (k : Nat) (id : String) : Nat :=
  match t.sems[k]? with
  | none => 0
  | some sem => sem.tokens.count id

def acquiredCount (t : Tracker) (id : String) (k : Nat) : Nat :=
  tally Event.acquiredAt t.trace (id, k)

def releasedCount (t : Tracker) (id : String) (k : Nat) : Nat :=
  tally Event.releasedAt t.trace (id, k)

variable {t : Tracker} {k : Nat} {sem : Semaphore} {event : Event} {pc' : Pc} {id : String}
  {ch : Option Nat}

variable {sem' : Semaphore}

theorem Sets.tokensAt_eq (hsets : t.Sets t' k sem' event) (hsem : t.sems[k]? = some sem) (j : Nat)
    (id : String) :
    t'.tokensAt j id =
      if k = j then sem'.tokens.count id else t.tokensAt j id := by
  unfold tokensAt
  rw [hsets.sems_eq]
  have hlt : k < t.sems.length := (List.getElem?_eq_some_iff.mp hsem).1
  by_cases hj : k = j
  · subst hj
    simp [hlt]
  · rw [if_neg hj, List.getElem?_set_ne hj]

theorem tokensAt_eq (hsem : t.sems[k]? = some sem) (id : String) :
    t.tokensAt k id = sem.tokens.count id := by
  simp [tokensAt, hsem]

theorem exists_of_tokensAt_pos (hpos : 0 < t.tokensAt k id) :
    ∃ sem, t.sems[k]? = some sem ∧ id ∈ sem.tokens := by
  unfold tokensAt at hpos
  cases hsem : t.sems[k]? with
  | none => simp [hsem] at hpos
  | some sem =>
    simp only [hsem] at hpos
    exact ⟨sem, rfl, List.count_pos_iff.mp hpos⟩

structure TokenMoves (t t' : Tracker) (pc pc' : Pc) : Prop where
  sem_eq : t'.sem = t.sem
  balance : ∀ k id, t.sem = some k →
    t'.tokensAt k id + t.activeCount id + ownCount Pc.acquired id pc +
        ownCount Pc.releasing id pc =
      t.tokensAt k id + t'.activeCount id + ownCount Pc.acquired id pc' +
        ownCount Pc.releasing id pc'
  others : ∀ k id, t.sem ≠ some k → t'.tokensAt k id = t.tokensAt k id
  conserved : ∀ k id,
    t'.acquiredCount id k + t.releasedCount id k + t.tokensAt k id =
      t.acquiredCount id k + t'.releasedCount id k + t'.tokensAt k id
  own : ∀ id k owner, Event.released id k owner ∈ t'.trace →
    Event.released id k owner ∈ t.trace ∨ owner = id
  agrees : pc'.Agrees t.sem
  caps : t'.sems.map Semaphore.cap = t.sems.map Semaphore.cap

def Slotless (t t' : Tracker) : Prop :=
  t'.trace = t.trace ∨ ∃ event : Event, t'.trace = t.trace ++ [event] ∧
    event.acquiredAt = none ∧ event.releasedAt = none

attribute [local simp] Pc.releasing ownCount Pc.acquired

theorem Slotless.counts_eq (hslotless : t.Slotless t') (id : String) (k : Nat) :
    t'.acquiredCount id k = t.acquiredCount id k ∧
      t'.releasedCount id k = t.releasedCount id k := by
  unfold acquiredCount releasedCount
  rcases hslotless with hsame | ⟨event, hnext, hacquired, hreleased⟩
  · simp [hsame]
  · simp [hnext, tally_concat, hacquired, hreleased]

theorem Slotless.own (hslotless : t.Slotless t') {owner : String}
    (hmem : Event.released id k owner ∈ t'.trace) : Event.released id k owner ∈ t.trace := by
  rcases hslotless with hsame | ⟨event, hnext, -, hreleased⟩
  · rwa [hsame] at hmem
  · rw [hnext, List.mem_append, List.mem_singleton] at hmem
    rcases hmem with hold | hnew
    · exact hold
    · rw [← hnew] at hreleased
      contradiction

theorem TokenMoves.of_keep (hslotless : t.Slotless t') (hsem : t'.sem = t.sem)
    (hsems : t'.sems = t.sems)
    (howned : t.sem ≠ none → ∀ id,
      t.activeCount id + ownCount Pc.acquired id pc +
          ownCount Pc.releasing id pc =
        t'.activeCount id + ownCount Pc.acquired id pc' +
          ownCount Pc.releasing id pc') (hagrees : pc'.Agrees t.sem) : TokenMoves t t' pc pc' := by
  have htokens : ∀ k id, t'.tokensAt k id = t.tokensAt k id := by
    intro k id
    unfold tokensAt
    rw [hsems]
  refine ⟨hsem, ?_, fun k id _ => htokens k id, ?_, ?_, hagrees, congrArg _ hsems⟩
  · intro k id hk
    have hid := howned (by simp [hk]) id
    rw [htokens]
    omega
  · intro k id
    simp only [hslotless.counts_eq, htokens]
  · intro id k owner hmem
    exact .inl (hslotless.own hmem)

theorem TokenMoves.of_same_owner (hslotless : t.Slotless t') (hsem : t'.sem = t.sem)
    (hsems : t'.sems = t.sems) (hkeys : t'.active.keys = t.active.keys)
    (hacquired : pc'.acquired = pc.acquired) (hreleasing : pc'.releasing = pc.releasing)
    (hagrees : pc'.Agrees t.sem) : TokenMoves t t' pc pc' := by
  refine .of_keep hslotless hsem hsems ?_ hagrees
  intro _ id
  simp only [activeCount, hkeys, ownCount, hacquired, hreleasing]

theorem TokenMoves.of_remove (hslotless : t.Slotless t') (hsem : t'.sem = t.sem)
    (hsems : t'.sems = t.sems) (hmem : id ∈ t.active.keys)
    (hkeys : t'.active.keys = t.active.keys.erase id) (hacquired : pc'.acquired = pc.acquired)
    (hbefore : pc.releasing = none) (hafter : pc'.releasing = some id)
    (hagrees : pc'.Agrees t.sem) : TokenMoves t t' pc pc' := by
  refine .of_keep hslotless hsem hsems ?_ hagrees
  intro _ other
  have hcount := activeCount_of_erase hmem hkeys other
  simp only [ownCount, hacquired, hbefore, hafter, reduceCtorEq, if_false]
  omega

theorem TokenMoves.of_sets (hsem : t.sems[k]? = some sem) (hsets : t.Sets t' k sem' event)
    (hcurrent : t.sem = some k) (hcap : sem'.cap = sem.cap)
    (hbalance : ∀ id, sem'.tokens.count id + ownCount Pc.acquired id pc +
        ownCount Pc.releasing id pc =
      sem.tokens.count id + ownCount Pc.acquired id pc' + ownCount Pc.releasing id pc')
    (hconserved : ∀ j id, ownCount Event.acquiredAt (id, j) event +
        (if k = j then sem.tokens.count id else 0) =
      ownCount Event.releasedAt (id, j) event + if k = j then sem'.tokens.count id else 0)
    (hown : ∀ id j owner, event = .released id j owner → owner = id) (hagrees : pc'.Agrees t.sem) :
    TokenMoves t t' pc pc' := by
  refine ⟨hsets.sem_eq, ?_, ?_, ?_, ?_, hagrees, ?_⟩
  · intro j id hj
    obtain rfl : k = j := Option.some.inj (hcurrent.symm.trans hj)
    have hid := hbalance id
    simp only [hsets.tokensAt_eq hsem, tokensAt_eq hsem, activeCount, hsets.active_eq, if_true]
    omega
  · intro j id hj
    rw [hsets.tokensAt_eq hsem, if_neg]
    rintro rfl
    exact hj hcurrent
  · intro j id
    have hid := hconserved j id
    simp only [hsets.tokensAt_eq hsem, acquiredCount, releasedCount, hsets.trace_eq, tally_concat]
    by_cases hj : k = j
    · subst hj
      simp only [tokensAt_eq hsem, if_true] at *
      omega
    · simp only [hj, if_false] at *
      omega
  · intro id j owner hmem
    rw [hsets.trace_eq, List.mem_append, List.mem_singleton] at hmem
    exact hmem.imp_right fun hnew => hown id j owner hnew.symm
  · rw [hsets.sems_eq]
    exact map_set_of_eq hsem hcap

theorem TokenMoves.of_send {call : StartCall} (hsend : t.sendOn ch call.id = some t')
    (hch : ch = none ∨ ch = t.sem) (hacquired : pc.acquired = none)
    (hreleasing : pc.releasing = none) : TokenMoves t t' pc (.startInsert call ch) := by
  obtain ⟨k, sem, sem', rfl, hk, ⟨htokens, hcap⟩, hsets⟩ := sendOn_spec hsend
  have hcurrent : some k = t.sem := by simpa using hch
  refine .of_sets hk hsets hcurrent.symm hcap ?_ ?_ nofun hcurrent
  · intro id
    rw [ownCount, ownCount, hacquired, hreleasing]
    simp [htokens, List.count_cons]
  · simp only [ownCount, Event.acquiredAt, Event.releasedAt]
    grind

theorem TokenMoves.of_receive {c : Completion} (hreceive : t.receiveOn ch c.id = some t')
    (hch : ch = t.sem) (hown : ∀ k, t.sem = some k → 0 < t.tokensAt k c.id) :
    TokenMoves t t' (.releaseRecv c ch) (.finish c) := by
  obtain ⟨k, sem, owner, sem', rfl, hk, hown', hsets⟩ :=
    receiveOn_spec hreceive
  have hmem : c.id ∈ sem.tokens := by
    have hpos := hown k hch.symm
    rw [tokensAt_eq hk] at hpos
    exact List.count_pos_iff.mp hpos
  obtain ⟨left, hleft, htokens, hcap⟩ := Semaphore.receive_own hmem
  rw [hleft, Option.some.injEq, Prod.mk.injEq] at hown'
  obtain ⟨rfl, rfl⟩ := hown'
  have hcount : ∀ id, sem.tokens.count id = left.tokens.count id + if c.id = id then 1 else 0 := by
    intro id
    have hperm := (List.perm_cons_erase hmem).count_eq id
    rw [List.count_cons] at hperm
    rw [htokens]
    simpa using hperm
  refine .of_sets hk hsets hch.symm hcap ?_ ?_ ?_ trivial
  · simp [hcount]
  · simp only [ownCount, Event.acquiredAt, Event.releasedAt]
    grind
  · rintro id j owner ⟨⟩
    rfl

theorem tokenMoves_advance (hagrees : pc.Agrees t.sem)
    (hfresh : ∀ id, pc.starting = some id → id ∉ t.active.keys)
    (hown : ∀ id k, pc.releasing = some id → t.sem = some k → 0 < t.tokensAt k id)
    (hkeep : ∀ r, pc ≠ .reconfSwap r) (hstep : t.advance now pc = some (t', pc')) :
    TokenMoves t t' pc pc' := by
  cases advances_of_advance hstep with
  | unlimited call hsem =>
    refine .of_keep (.inl rfl) rfl rfl ?_ hsem.symm
    intro hne
    exact absurd hsem hne
  | evaluated call | reevaluated call =>
    exact .of_same_owner (.inl rfl) rfl rfl rfl rfl rfl (.inr rfl)
  | taken call ch hsend | unblocked call ch hsend => exact .of_send hsend hagrees rfl rfl
  | waiting call | started call atTime | reported call | completed call st | finished c =>
    exact .of_same_owner (.inr ⟨_, rfl, rfl, rfl⟩) rfl rfl rfl rfl rfl trivial
  | inserted call token =>
    refine .of_keep (.inr ⟨_, rfl, rfl, rfl⟩) rfl rfl ?_ trivial
    intro _ id
    unfold activeCount
    rw [keys_startLocked call (hfresh call.id rfl), List.count_cons]
    simp
  | accepted call done hlocked =>
    obtain ⟨hmem, hkeys, hsem, hsems, htrace⟩ := nodeEventLocked_spec hlocked
    have hslotless : t.Slotless t' := .inr ⟨_, htrace, rfl, rfl⟩
    cases done with
    | none => exact .of_same_owner hslotless hsem hsems hkeys rfl rfl trivial
    | some st => exact .of_remove hslotless hsem hsems hmem hkeys rfl rfl rfl trivial
  | cancelled flowID id hlocked | timedOut flowID id hlocked =>
    obtain ⟨hmem, hkeys, hsem, hsems, htrace⟩ := removeLocked_spec hlocked
    exact .of_remove (.inl htrace) hsem hsems hmem hkeys rfl rfl rfl trivial
  | slotless c hsem =>
    refine .of_keep (.inl rfl) rfl rfl ?_ trivial
    intro hne
    exact absurd hsem hne
  | slotted c hsem => exact .of_same_owner (.inl rfl) rfl rfl rfl rfl rfl hsem
  | slotEvaluated c => exact .of_same_owner (.inl rfl) rfl rfl rfl rfl rfl ⟨rfl, hagrees⟩
  | released c ch hreceive => exact .of_receive hreceive hagrees.1 fun k => hown c.id k rfl
  | swapped r => exact absurd rfl (hkeep r)
  | _ => exact .of_same_owner (.inl rfl) rfl rfl rfl rfl rfl trivial

end Tracker

namespace System

structure Slots (s : System) : Prop where
  balance : ∀ k id, s.tracker.sem = some k →
    s.tracker.tokensAt k id =
      s.tracker.activeCount id + tally Pc.acquired s.threads id +
        tally Pc.releasing s.threads id
  retired : ∀ k id, s.tracker.sem ≠ some k → s.tracker.tokensAt k id = 0
  conserved : ∀ k id,
    s.tracker.acquiredCount id k =
      s.tracker.releasedCount id k + s.tracker.tokensAt k id
  own : ∀ id k owner, Event.released id k owner ∈ s.tracker.trace → owner = id
  agrees : ∀ pc ∈ s.threads, pc.Agrees s.tracker.sem

theorem Slots.token_of_releasing (hslots : s.Slots) (hpc : pc ∈ s.threads) {id : String} {k : Nat}
    (hreleasing : pc.releasing = some id) (hsem : s.tracker.sem = some k) :
    0 < s.tracker.tokensAt k id := by
  have hown := ownCount_le_tally Pc.releasing hpc id
  rw [ownCount, if_pos hreleasing] at hown
  have hbalance := hslots.balance k id hsem
  omega

theorem Slots.of_tokenMoves (hslots : s.Slots) {index : Nat} {pc' : Pc}
    (hpc : s.threads[index]? = some pc) (hmoves : Tracker.TokenMoves s.tracker t' pc pc') :
    Slots { s with tracker := t', threads := s.threads.set index pc' } := by
  refine ⟨?_, ?_, ?_, ?_, ?_⟩
  · intro k id hk
    have hsem : s.tracker.sem = some k := hmoves.sem_eq.symm.trans hk
    have hmoved := hmoves.balance k id hsem
    have hbalance := hslots.balance k id hsem
    have hacquired := tally_set Pc.acquired hpc pc' id
    have hreleasing := tally_set Pc.releasing hpc pc' id
    dsimp only
    omega
  · intro k id hk
    have hsem : s.tracker.sem ≠ some k := by
      rw [← hmoves.sem_eq]
      exact hk
    rw [hmoves.others k id hsem]
    exact hslots.retired k id hsem
  · intro k id
    have hmoved := hmoves.conserved k id
    have hconserved := hslots.conserved k id
    dsimp only
    omega
  · intro id k owner hmem
    rcases hmoves.own id k owner hmem with hold | hown
    · exact hslots.own id k owner hold
    · exact hown
  · rw [hmoves.sem_eq]
    exact forall_mem_set hslots.agrees hmoves.agrees

theorem Slots.spawn (hslots : s.Slots) (hquiet : pc.quiet = true)
    (timers : AList fun _ : String => Timer) (used : List String) :
    Slots ⟨{ s.tracker with timers := timers }, s.threads ++ [pc], used⟩ := by
  refine ⟨?_, hslots.retired, hslots.conserved, hslots.own, ?_⟩
  · intro k id hk
    have hbalance := hslots.balance k id hk
    rw [tally_concat, tally_concat, ownCount, ownCount, (Pc.owns_of_quiet hquiet).1,
      (Pc.owns_of_quiet hquiet).2]
    exact hbalance
  · exact forall_mem_concat hslots.agrees (Pc.agrees_of_quiet hquiet _)

def swapSafe (s : System) : Action → Bool
  | .proceed thread _ =>
    match s.threads[thread]? with
    | some (.reconfSwap r) =>
      (s.tracker.sem.isNone && decide (r.maxConcurrency ≤ 0)) ||
        (s.tracker.idle && s.threads.all Pc.quiet)
    | _ => true
  | _ => true

end System

theorem Tracker.tokensAt_reconfigure (t : Tracker) (r : Reconfiguration) (k : Nat) (id : String) :
    (t.reconfigure r).tokensAt k id = t.tokensAt k id := by
  unfold Tracker.tokensAt Tracker.reconfigure
  split_ifs with hmax
  · rw [getElem?_concat_eq_ite]
    by_cases heq : k = t.sems.length
    · simp [heq, Semaphore.make]
    · rw [if_neg heq]
  · rfl

namespace System

variable {index : Nat}

theorem Slots.swap_unlimited (hslots : s.Slots) {r : Reconfiguration}
    (hsem : s.tracker.sem = none) (hmax : r.maxConcurrency ≤ 0) :
    Slots { s with
      tracker := s.tracker.reconfigure r
      threads := s.threads.set index (.returned .done) } := by
  have hnone : (s.tracker.reconfigure r).sem = none := by
    simp only [Tracker.reconfigure]
    rw [if_neg (by omega)]
  refine ⟨?_, ?_, ?_, hslots.own, ?_⟩ <;> simp only [Tracker.tokensAt_reconfigure, hnone]
  · simp
  · exact fun k id _ => hslots.retired k id (by simp [hsem])
  · exact hslots.conserved
  · rw [← hsem]
    exact forall_mem_set hslots.agrees trivial

theorem Slots.swap_quiet (hslots : s.Slots) (r : Reconfiguration) (hidle : s.tracker.idle = true)
    (hquiet : ∀ pc ∈ s.threads, pc.quiet = true) :
    Slots { s with
      tracker := s.tracker.reconfigure r
      threads := s.threads.set index (.returned .done) } := by
  have hactive : ∀ id, s.tracker.activeCount id = 0 := by
    intro id
    unfold Tracker.activeCount
    rw [List.isEmpty_iff.mp hidle, List.count_nil]
  have hthreads {threads : List Pc} (hquiet : ∀ pc ∈ threads, pc.quiet = true) (id : String) :
      tally Pc.acquired threads id = 0 ∧ tally Pc.releasing threads id = 0 :=
    ⟨tally_eq_zero (fun pc hpc => (Pc.owns_of_quiet (hquiet pc hpc)).1) id,
      tally_eq_zero (fun pc hpc => (Pc.owns_of_quiet (hquiet pc hpc)).2) id⟩
  have hempty : ∀ k id, s.tracker.tokensAt k id = 0 := by
    intro k id
    by_cases hk : s.tracker.sem = some k
    · simp [hslots.balance k id hk, hactive, hthreads hquiet]
    · exact hslots.retired k id hk
  have hquiet' : ∀ pc ∈ s.threads.set index (.returned .done),
      pc.quiet = true := forall_mem_set hquiet rfl
  refine ⟨?_, ?_, ?_, hslots.own, ?_⟩ <;> simp only [Tracker.tokensAt_reconfigure]
  · intro k id _
    rw [hempty, (hthreads hquiet' id).1, (hthreads hquiet' id).2]
    exact (hactive id).symm
  · exact fun k id _ => hempty k id
  · exact hslots.conserved
  · exact fun pc hpc => Pc.agrees_of_quiet (hquiet' pc hpc) _

theorem Slots.tokenMoves {pc' : Pc} (hslots : s.Slots) (hlife : s.Lifecycle)
    (hpc : s.threads[index]? = some pc) (hkeep : ∀ r, pc ≠ .reconfSwap r)
    (hadvance : s.tracker.advance now pc = some (t', pc')) :
    Tracker.TokenMoves s.tracker t' pc pc' := by
  have hmem : pc ∈ s.threads := List.mem_of_getElem? hpc
  exact Tracker.tokenMoves_advance (hslots.agrees pc hmem)
    (fun id => hlife.not_active_of_starting hmem)
    (fun id k => hslots.token_of_releasing hmem) hkeep hadvance

theorem slots_step {s' : System} (hlife : s.Lifecycle) (hslots : s.Slots)
    (hsafe : s.swapSafe action = true) (hstep : s.step action = some s') : s'.Slots := by
  cases steps_of_step hstep with
  | spawn _ hentering => exact hslots.spawn (by cases hentering <;> rfl) s.tracker.timers s.used
  | start => exact hslots.spawn rfl s.tracker.timers _
  | @proceed _ _ pc _ _ hpc hadvance =>
    by_cases hswap : ∃ r, pc = .reconfSwap r
    · obtain ⟨r, rfl⟩ := hswap
      cases hadvance
      simp only [swapSafe, hpc, Bool.or_eq_true, Bool.and_eq_true,
        decide_eq_true_eq, Option.isNone_iff_eq_none, List.all_eq_true]
        at hsafe
      rcases hsafe with ⟨hsem, hmax⟩ | ⟨hidle, hquiet⟩
      · exact hslots.swap_unlimited hsem hmax
      · exact hslots.swap_quiet r hidle hquiet
    · rw [not_exists] at hswap
      exact hslots.of_tokenMoves hpc (hslots.tokenMoves hlife hpc hswap hadvance)
  | abort hpc =>
    exact hslots.of_tokenMoves hpc (.of_same_owner (.inl rfl) rfl rfl rfl rfl rfl trivial)
  | fire => exact hslots.spawn rfl _ s.used

theorem slots_start (maxConcurrency : Int) (reject : Bool) (timeout : Int) :
    (start (.newTracker maxConcurrency reject timeout)).Slots := by
  have hempty : ∀ k id, (Tracker.newTracker maxConcurrency reject timeout).tokensAt k id = 0 := by
    intro k id
    unfold Tracker.tokensAt Tracker.newTracker
    split_ifs
    · cases k <;> rfl
    · rfl
  refine ⟨fun k id _ => hempty k id, fun k id _ => hempty k id, ?_,
    fun _ _ _ hmem => absurd hmem List.not_mem_nil, List.forall_mem_nil _⟩
  intro k id
  dsimp only [start]
  rw [hempty]
  rfl

/-! ## What the accounting gives -/

def ReleaseNeverBlocks (s : System) : Prop :=
  ∀ thread c ch, s.threads[thread]? = some (.releaseRecv c ch) →
    ∀ now, ∃ next, s.step (.proceed thread now) = some next

theorem Slots.releaseNeverBlocks (hslots : s.Slots) : s.ReleaseNeverBlocks := by
  intro thread c ch hpc now
  have hmem := List.mem_of_getElem? hpc
  obtain ⟨rfl, hne⟩ : ch = s.tracker.sem ∧ s.tracker.sem ≠ none :=
    hslots.agrees _ hmem
  obtain ⟨k, hk⟩ := Option.ne_none_iff_exists'.mp hne
  obtain ⟨sem, hsem, hid⟩ := Tracker.exists_of_tokensAt_pos
    (hslots.token_of_releasing hmem rfl hk)
  obtain ⟨sem', hreceive, -, -⟩ := Semaphore.receive_own hid
  simp only [step, advanceAt, hpc, Tracker.advance, Tracker.receiveOn, hk, hsem, hreceive]
  exact ⟨_, rfl⟩

theorem Slots.perm_tokens (hslots : s.Slots) {k : Nat} {sem : Semaphore}
    (hk : s.tracker.sem = some k) (hsem : s.tracker.sems[k]? = some sem) :
    sem.tokens.Perm (s.tracker.active.keys ++
      (s.threads.filterMap Pc.acquired ++ s.threads.filterMap Pc.releasing)) := by
  apply List.perm_iff_count.mpr
  intro id
  have hbalance := hslots.balance k id hk
  rw [Tracker.tokensAt_eq hsem] at hbalance
  rw [List.count_append, List.count_append, hbalance, Nat.add_assoc]
  rfl

def TokensAccounted (s : System) : Prop :=
  ∃ k sem, s.tracker.sem = some k ∧ s.tracker.sems[k]? = some sem ∧
    sem.tokens.length = s.tracker.active.keys.length +
      (s.threads.filterMap Pc.acquired).length +
      (s.threads.filterMap Pc.releasing).length

def FinishedOnce (s : System) : Prop :=
  ∀ id, s.tracker.insertedCount id ≤ 1 ∧
    s.tracker.finishedCount id + s.tracker.activeCount id +
      tally Pc.finishing s.threads id = s.tracker.insertedCount id

theorem Lifecycle.finishedOnce (hlife : s.Lifecycle) : s.FinishedOnce := by
  intro id
  have hfresh := hlife.fresh id
  exact ⟨by omega, hlife.accounted id⟩

end System

/-! ## Fixed configuration -/

def Pc.settled : Pc → Bool
  | .reconfIdle _ | .reconfSwap _ => false
  | _ => true

def Action.reconfigures : Action → Bool
  | .call (.reconfigure _) => true
  | _ => false

theorem Tracker.settled_advance {t : Tracker} {pc' : Pc} (hstep : t.advance now pc = some (t', pc'))
    (hpc : pc.settled = true) : pc'.settled = true := by
  cases pc <;> simp only [Tracker.advance] at hstep <;>
    grind [Pc.settled]

namespace System

structure Fixed (m : Nat) (s : System) : Prop where
  lifecycle : s.Lifecycle
  slots : s.Slots
  settled : ∀ pc ∈ s.threads, pc.settled = true
  sem_eq : s.tracker.sem = some 0
  caps : s.tracker.sems.map Semaphore.cap = [m]

variable {m : Nat}

theorem Fixed.swapSafe (hfixed : s.Fixed m) (action : Action) : s.swapSafe action = true := by
  cases action with
  | proceed thread now =>
    simp only [System.swapSafe]
    split
    next hpc =>
      have hsettled := hfixed.settled _ (List.mem_of_getElem? hpc)
      contradiction
    · rfl
  | _ => rfl

theorem fixed_step {s' : System} (hfixed : s.Fixed m) (haction : action.reconfigures = false)
    (hstep : s.step action = some s') : s'.Fixed m := by
  have hlife := lifecycle_step hfixed.lifecycle hstep
  have hslots := slots_step hfixed.lifecycle hfixed.slots
    (hfixed.swapSafe action) hstep
  cases steps_of_step hstep with
  | @spawn c _ hentry =>
    subst hentry
    refine ⟨hlife, hslots, ?_, hfixed.sem_eq, hfixed.caps⟩
    cases c with
    | reconfigure settings => contradiction
    | _ => exact forall_mem_concat hfixed.settled rfl
  | @proceed _ _ pc _ _ hpc hadvance =>
    have hsettled := hfixed.settled pc (List.mem_of_getElem? hpc)
    have hmoves := hfixed.slots.tokenMoves hfixed.lifecycle hpc
      (by rintro r rfl; contradiction) hadvance
    exact ⟨hlife, hslots,
      forall_mem_set hfixed.settled (Tracker.settled_advance hadvance hsettled),
      hmoves.sem_eq.trans hfixed.sem_eq, hmoves.caps.trans hfixed.caps⟩
  | abort => exact ⟨hlife, hslots, forall_mem_set hfixed.settled rfl, hfixed.sem_eq, hfixed.caps⟩
  | start | fire =>
    exact ⟨hlife, hslots, forall_mem_concat hfixed.settled rfl, hfixed.sem_eq, hfixed.caps⟩

theorem fixed_start {m : Int} (hm : 0 < m) (reject : Bool) (timeout : Int) :
    (start (.newTracker m reject timeout)).Fixed m.toNat where
  lifecycle := lifecycle_start m reject timeout
  slots := slots_start m reject timeout
  settled := List.forall_mem_nil _
  sem_eq := by exact if_pos hm
  caps := by
    simp only [Tracker.newTracker]
    rw [if_pos hm]
    rfl

theorem Fixed.tokensAccounted (hfixed : s.Fixed m) :
    ∃ sem : Semaphore, s.tracker.sems[0]? = some sem ∧ sem.cap = m ∧
      sem.tokens.length = s.tracker.active.keys.length +
        (s.threads.filterMap Pc.acquired).length +
        (s.threads.filterMap Pc.releasing).length := by
  obtain ⟨sem, hsems, hcap⟩ := List.map_eq_singleton_iff.mp hfixed.caps
  have hsem : s.tracker.sems[0]? = some sem := by rw [hsems]; rfl
  have hlength := (hfixed.slots.perm_tokens hfixed.sem_eq hsem).length_eq
  rw [List.length_append, List.length_append, ← Nat.add_assoc] at hlength
  exact ⟨sem, hsem, hcap, hlength⟩

end System

/--
Slot accounting under a fixed configuration: in every interleaving the tokens
are exactly those of active, starting and finishing executions, a release never
blocks, and each execution is reported finished once, with no node event
accepted afterwards.
-/
theorem fixed_configuration_accounting {m : Int} (hm : 0 < m) (reject : Bool) (timeout : Int)
    (actions : List Action) (hfixed : ∀ action ∈ actions, action.reconfigures = false) {s : System}
    (hrun : run System.step (.start (.newTracker m reject timeout)) actions = some s) :
    s.TokensAccounted ∧ (s.tracker.active.keys.length : Int) ≤ m ∧
      s.ReleaseNeverBlocks ∧ s.FinishedOnce ∧ NoLateAccept s.tracker.trace := by
  have hinv : s.Fixed m.toNat :=
    run_invariant_of_meets System.fixed_step
      (System.fixed_start hm reject timeout) (meets_of_forall hfixed _) hrun
  obtain ⟨sem, hsem, hcap, htokens⟩ := hinv.tokensAccounted
  refine ⟨⟨0, sem, hinv.sem_eq, hsem, htokens⟩, ?_,
    hinv.slots.releaseNeverBlocks, hinv.lifecycle.finishedOnce,
    hinv.lifecycle.noLateAccept⟩
  have hle := sem.le_cap
  omega

def webhookStart (id : String) : StartCall where
  flowID := "flow"
  triggerNodeID := "in"
  triggerKind := "webhook"
  reRunOf := ""
  seed := { header := { id := id, correlationID := id } }

def startThenCancel : List Action :=
  [Action.call (.start (webhookStart "a"))] ++ List.replicate 5 (Action.proceed 0 0) ++
    [Action.call (.cancel "flow" "a")] ++ List.replicate 5 (Action.proceed 1 0)

theorem fixed_configuration_accounting_startThenCancel :
    ∃ s, run System.step (.start (.newTracker 1 false 0)) startThenCancel =
        some s ∧
      s.tracker.finishedCount "a" = 1 ∧ s.TokensAccounted := by
  refine ⟨_, rfl, by decide, ?_⟩
  exact (fixed_configuration_accounting Int.one_pos false 0 startThenCancel
    (by decide) rfl).1

/-! ## Reconfiguration -/

structure System.SlotsSound (s : System) : Prop where
  releaseNeverBlocks : s.ReleaseNeverBlocks
  ownToken : ∀ id k owner, Event.released id k owner ∈ s.tracker.trace → owner = id
  sameSemaphore : ∀ id k,
    s.tracker.acquiredCount id k =
      s.tracker.releasedCount id k + s.tracker.tokensAt k id
  drained : s.tracker.active.keys = [] →
    (∀ pc ∈ s.threads, pc.acquired = none ∧ pc.releasing = none) →
    ∀ (k : Nat) (sem : Semaphore), s.tracker.sems[k]? = some sem →
      sem.tokens = []

theorem System.Slots.sound (hslots : s.Slots) : s.SlotsSound where
  releaseNeverBlocks := hslots.releaseNeverBlocks
  ownToken := hslots.own
  sameSemaphore id k := hslots.conserved k id
  drained hactive hthreads k sem hsem := by
    apply List.eq_nil_iff_forall_not_mem.mpr
    intro id hid
    have hpos : 0 < s.tracker.tokensAt k id := by
      rw [Tracker.tokensAt_eq hsem]
      exact List.count_pos_iff.mpr hid
    by_cases hk : s.tracker.sem = some k
    · rw [hslots.balance k id hk, Tracker.activeCount, hactive,
        tally_eq_zero fun pc hpc => (hthreads pc hpc).1,
        tally_eq_zero fun pc hpc => (hthreads pc hpc).2] at hpos
      contradiction
    · rw [hslots.retired k id hk] at hpos
      contradiction

def System.Accounted (s : System) : Prop := s.Lifecycle ∧ s.Slots

theorem System.accounted_step {s' : System} (haccounted : s.Accounted)
    (hsafe : s.swapSafe action = true) (hstep : s.step action = some s') : s'.Accounted :=
  ⟨lifecycle_step haccounted.1 hstep, slots_step haccounted.1 haccounted.2 hsafe hstep⟩

/--
In every run in which each swap of the semaphore is one no thread can notice,
reconfiguration keeps the slot accounting.
-/
theorem reconfiguration_keeps_slots (maxConcurrency : Int) (reject : Bool) (timeout : Int)
    (actions : List Action) (hsafe : Meets System.step (fun s action => s.swapSafe action = true)
      (.start (.newTracker maxConcurrency reject timeout)) actions)
    {s : System}
    (hrun : run System.step
      (.start (.newTracker maxConcurrency reject timeout)) actions = some s) :
    s.SlotsSound := by
  have hstart : (System.start (.newTracker maxConcurrency reject timeout)).Accounted :=
    ⟨System.lifecycle_start maxConcurrency reject timeout,
      System.slots_start maxConcurrency reject timeout⟩
  have hinv : s.Accounted :=
    run_invariant_of_meets System.accounted_step hstart hsafe hrun
  exact hinv.2.sound

def oneSlot : Settings := { maxConcurrency := some 1 }

def reconfigureWhenQuiet : List Action :=
  startThenCancel ++ [Action.call (.reconfigure oneSlot)] ++ List.replicate 2 (Action.proceed 2 0)

theorem reconfiguration_keeps_slots_whenQuiet :
    ∃ s, run System.step (.start (.newTracker 1 false 0))
        reconfigureWhenQuiet = some s ∧
      s.tracker.sem = some 1 ∧ s.SlotsSound := by
  refine ⟨_, rfl, rfl, ?_⟩
  exact reconfiguration_keeps_slots 1 false 0 reconfigureWhenQuiet (by decide) rfl

/--
The idle check falls between the acquire and the insert of a `Start`: its
finisher then waits on a semaphore that nobody ever sent to.
-/
def swapUnderStart : List Action :=
  [Action.call (.start (webhookStart "a"))] ++ List.replicate 3 (Action.proceed 0 0) ++
    [Action.call (.reconfigure oneSlot)] ++ List.replicate 2 (Action.proceed 1 0) ++
    List.replicate 2 (Action.proceed 0 0) ++ [Action.call (.cancel "flow" "a")] ++
    List.replicate 3 (Action.proceed 2 0)

theorem swapUnderStart_blocks_release :
    ¬ ∀ (maxConcurrency : Int) (reject : Bool) (timeout : Int)
      (actions : List Action) (s : System),
      run System.step (.start (.newTracker maxConcurrency reject timeout))
        actions = some s → s.SlotsSound := by
  intro hall
  have hsound := hall 1 false 0 swapUnderStart _ rfl
  obtain ⟨next, hnext⟩ := hsound.releaseNeverBlocks 2 _ _ rfl 0
  contradiction

end DataPipe.Flow
