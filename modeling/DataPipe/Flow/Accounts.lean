import DataPipe.Flow.Completion

/-!
# Datagrams and their accounts

The datagrams of a pipeline as tokens.  A datagram is live until its report and
counted once its producer has reported.  In a run of regular steps a node has
delivered what it is going to report, and a live datagram whose producer has
not reported lies behind a live one of the same execution.
-/

set_option linter.dupNamespace false

namespace DataPipe.Flow

open DataPipe.Foundation

def Stage.live : Stage → Bool
  | .queued => true
  | .invoking => true
  | .running (_ :: _) => true
  | _ => false

def Item.token (item : Item) : Token String :=
  ⟨item.corr, item.producer, item.stage.live⟩

def tokens (items : List Item) : List (Token String) := items.map Item.token

def counted (items : List Item) (id : String) : Nat := tally Token.counted (tokens items) id

/-- The live datagrams delivered by the item at `index`, which has not reported. -/
def produced (items : List Item) (index : Nat) : Nat :=
  tally Token.producedBy (tokens items) index

def Item.producing (item : Item) : Bool :=
  match item.stage with
  | .running (_ :: _) => !item.trigger
  | _ => false

variable {item : Item} {i : Nat} {items : List Item} {t : Token String}

theorem Item.live_of_producing (h : item.producing = true) : item.stage.live = true := by
  unfold Item.producing at h
  split at h
  case h_1 hstage => rw [hstage]; rfl
  case h_2 => contradiction

theorem getElem?_tokens :
    (tokens items)[i]? = some t ↔ ∃ item : Item, items[i]? = some item ∧ item.token = t := by
  rw [tokens, List.getElem?_map, Option.map_eq_some_iff]

theorem tokens_set (items : List Item) (i : Nat) (item : Item) :
    tokens (items.set i item) = (tokens items).set i item.token := List.map_set ..

theorem tokens_concat (items : List Item) (item : Item) :
    tokens (items ++ [item]) = tokens items ++ [item.token] := List.map_append ..

attribute [local simp] Item.token balanced

theorem Item.token_settle (i : Nat) (item : Item) :
    (item.settle i).token = item.token.settle i := by
  by_cases hproducer : item.producer = some i
  · simp [Item.settle, Token.settle, Item.corr, hproducer]
  · simp [Item.settle, Token.settle, hproducer]

theorem tokens_settle (items : List Item) (i : Nat) :
    tokens (items.map (Item.settle i)) = (tokens items).map (Token.settle i) := by
  rw [tokens, tokens, List.map_map, List.map_map]
  apply List.map_congr_left
  intro item _
  exact item.token_settle i

theorem counted_set (hitem : items[i]? = some item) (item' : Item) (id : String) :
    counted (items.set i item') id + ownCount Token.counted id item.token =
      counted items id + ownCount Token.counted id item'.token := by
  rw [counted, tokens_set]
  exact tally_set Token.counted (getElem?_tokens.mpr ⟨item, hitem, rfl⟩) item'.token id

theorem counted_concat (items : List Item) (item : Item) (id : String) :
    counted (items ++ [item]) id =
      counted items id + ownCount Token.counted id item.token := by
  rw [counted, tokens_concat, tally_concat]
  rfl

variable {id : String} {item' : Item}

theorem counted_deliver (hitem : items[i]? = some item) {new : Item}
    (hown : ownCount Token.counted id item'.token + ownCount Token.counted id new.token =
      ownCount Token.counted id item.token) :
    counted (items.set i item' ++ [new]) id = counted items id := by
  have hset := counted_set hitem item' id
  rw [counted_concat]
  omega

theorem ownCount_counted_of_ne (hne : item.corr ≠ id) :
    ownCount Token.counted id item.token = 0 := by
  refine if_neg ?_
  unfold Token.counted
  split
  case isTrue => exact fun heq => hne (Option.some.inj heq)
  case isFalse => simp

theorem produced_set (hitem : items[i]? = some item)
    (hsame : item'.token.producedBy = item.token.producedBy) (k : Nat) :
    produced (items.set i item') k = produced items k := by
  have htally := tally_set Token.producedBy (getElem?_tokens.mpr ⟨item, hitem, rfl⟩)
    item'.token k
  rw [ownCount, ownCount, hsame, Nat.add_right_cancel_iff] at htally
  rw [produced, tokens_set, htally]
  rfl

theorem produced_concat (items : List Item) (item : Item) (k : Nat) :
    produced (items ++ [item]) k =
      produced items k + ownCount Token.producedBy k item.token := by
  rw [produced, tokens_concat, tally_concat]
  rfl

theorem produced_settle (items : List Item) {k : Nat} (hne : k ≠ i) :
    produced (items.map (Item.settle i)) k = produced items k := by
  rw [produced, tokens_settle, Token.tally_producedBy_settle_ne _ hne]
  rfl

@[simp] theorem Item.corr_settle (i : Nat) (item : Item) : (item.settle i).corr = item.corr := by
  unfold Item.settle
  split <;> rfl

@[simp] theorem Item.stage_settle (i : Nat) (item : Item) : (item.settle i).stage = item.stage := by
  unfold Item.settle
  split <;> rfl

@[simp] theorem Item.trigger_settle (i : Nat) (item : Item) :
    (item.settle i).trigger = item.trigger := by
  unfold Item.settle
  split <;> rfl

theorem Item.producer_settle_eq_some {j : Nat}
    (h : (item.settle i).producer = some j) : item.producer = some j ∧ j ≠ i := by
  have htoken : (item.token.settle i).producer = some j := by
    rw [← item.token_settle]
    exact h
  exact Token.producer_settle_eq_some htoken

def Traced (items : List Item) : Prop :=
  ∀ (i : Nat) (item : Item) (j : Nat), items[i]? = some item →
    item.stage.live = true → item.producer = some j →
      j < i ∧ ∃ p : Item, items[j]? = some p ∧ p.producing = true ∧ p.corr = item.corr

namespace Traced

theorem rooted (h : Traced items) : Token.Rooted (tokens items) := by
  intro k t j ht hlive hproducer
  obtain ⟨other, hother, rfl⟩ := getElem?_tokens.mp ht
  obtain ⟨hlt, p, hp, hproducing, hcorr⟩ := h k other j hother hlive hproducer
  exact ⟨hlt, p.token, getElem?_tokens.mpr ⟨p, hp, rfl⟩, Item.live_of_producing hproducing, hcorr⟩

theorem of_producedBy (h : Traced items) (hitem : items[i]? = some item) (ht : t ∈ tokens items)
    (hproduced : t.producedBy = some i) : item.producing = true ∧ t.group = item.corr := by
  obtain ⟨product, hmem, rfl⟩ := List.mem_map.mp ht
  obtain ⟨k, hk⟩ := List.mem_iff_getElem?.mp hmem
  unfold Token.producedBy at hproduced
  split at hproduced
  case isFalse => contradiction
  case isTrue hlive =>
    obtain ⟨_, p, hp, hproducing, hcorr⟩ := h k product i hk hlive hproduced
    rw [hitem] at hp
    cases hp
    exact ⟨hproducing, hcorr.symm⟩

theorem produced_eq_zero (h : Traced items) (hitem : items[i]? = some item)
    (hproducing : item.producing = false) : produced items i = 0 := by
  by_contra hne
  obtain ⟨t, ht, hproduced⟩ := tally_pos_iff.mp (Nat.pos_of_ne_zero hne)
  have hdelivering := (h.of_producedBy hitem ht hproduced).1
  rw [hproducing] at hdelivering
  contradiction

variable {item' : Item}

theorem set (h : Traced items) (hitem : items[i]? = some item) (hcorr : item'.corr = item.corr)
    (hproducer : item'.producer = item.producer)
    (hlive : item'.stage.live = true → item.stage.live = true)
    (hproducing : item.producing = true → item'.producing = true) : Traced (items.set i item') := by
  obtain ⟨hlt, _⟩ := List.getElem?_eq_some_iff.mp hitem
  -- wherever the producer stood, it or its replacement stands now
  have hfind : ∀ (j : Nat) (p : Item), items[j]? = some p → p.producing = true →
      ∃ p' : Item, (items.set i item')[j]? = some p' ∧ p'.producing = true ∧
        p'.corr = p.corr := by
    intro j p hp hdelivering
    by_cases heq : j = i
    · subst heq
      rw [hitem] at hp
      cases hp
      exact ⟨item', List.getElem?_set_self hlt, hproducing hdelivering, hcorr⟩
    · exact ⟨p, by rw [List.getElem?_set_ne (Ne.symm heq), hp], hdelivering, rfl⟩
  intro k other j hother hothers hj
  rcases getElem?_set_eq_some hother with ⟨rfl, rfl⟩ | ⟨_, hold⟩
  · obtain ⟨hjlt, p, hp, hdelivering, hpcorr⟩ :=
      h k item j hitem (hlive hothers) (hproducer ▸ hj)
    obtain ⟨p', hp', hdelivering', hpcorr'⟩ := hfind j p hp hdelivering
    exact ⟨hjlt, p', hp', hdelivering', by rw [hpcorr', hpcorr, hcorr]⟩
  · obtain ⟨hjlt, p, hp, hdelivering, hpcorr⟩ := h k other j hold hothers hj
    obtain ⟨p', hp', hdelivering', hpcorr'⟩ := hfind j p hp hdelivering
    exact ⟨hjlt, p', hp', hdelivering', hpcorr'.trans hpcorr⟩

theorem concat (h : Traced items) {new : Item}
    (hnew : ∀ j, new.producer = some j →
      ∃ p : Item, items[j]? = some p ∧ p.producing = true ∧ p.corr = new.corr) :
    Traced (items ++ [new]) := by
  have hkeep : ∀ (j : Nat) (p : Item), items[j]? = some p →
      j < items.length ∧ (items ++ [new])[j]? = some p := by
    intro j p hp
    obtain ⟨hlt, _⟩ := List.getElem?_eq_some_iff.mp hp
    exact ⟨hlt, by rw [List.getElem?_append_left hlt, hp]⟩
  intro k other j hother hlive hj
  rcases getElem?_concat_eq_some hother with hold | ⟨rfl, rfl⟩
  · obtain ⟨hjlt, p, hp, hdelivering, hcorr⟩ := h k other j hold hlive hj
    exact ⟨hjlt, p, (hkeep j p hp).2, hdelivering, hcorr⟩
  · obtain ⟨p, hp, hdelivering, hcorr⟩ := hnew j hj
    exact ⟨(hkeep j p hp).1, p, (hkeep j p hp).2, hdelivering, hcorr⟩

theorem settle (h : Traced items) (hitem : items[i]? = some item)
    (hspent : item'.stage.live = false) : Traced ((items.set i item').map (Item.settle i)) := by
  intro k other j hother hlive hj
  rw [List.getElem?_map, Option.map_eq_some_iff] at hother
  obtain ⟨old, hold, rfl⟩ := hother
  rw [Item.stage_settle] at hlive
  obtain ⟨hj, hne⟩ := Item.producer_settle_eq_some hj
  rcases getElem?_set_eq_some hold with ⟨rfl, rfl⟩ | ⟨_, hold⟩
  · rw [hspent] at hlive
    contradiction
  · obtain ⟨hjlt, p, hp, hdelivering, hcorr⟩ := h k old j hold hlive hj
    refine ⟨hjlt, p.settle i, ?_, ?_, ?_⟩
    · rw [List.getElem?_map, List.getElem?_set_ne (Ne.symm hne), hp]
      rfl
    · simpa [Item.producing] using hdelivering
    · rw [Item.corr_settle, Item.corr_settle, hcorr]

theorem counted_report (h : Traced items) (hitem : items[i]? = some item)
    (hlive : item.stage.live = true) (hproducer : item.producer = none)
    (hspent : item'.stage.live = false) (id : String) :
    counted ((items.set i item').map (Item.settle i)) id +
        (if item.corr = id then 1 else 0) =
      counted items id + if item.corr = id then produced items i else 0 := by
  have hnone : item'.token.producedBy = none := by simp [Token.producedBy, hspent]
  have hgroup : ∀ t ∈ tokens (items.set i item'), t.producedBy = some i → t.group = item.corr := by
    rw [tokens_set]
    intro t ht hproduced
    rcases List.mem_or_eq_of_mem_set ht with hold | rfl
    · exact (h.of_producedBy hitem hold hproduced).2
    · rw [hnone] at hproduced
      contradiction
  have hsame : item'.token.producedBy = item.token.producedBy := by
    rw [hnone]
    simp [Token.producedBy, hproducer]
  have hset := counted_set hitem item' id
  have hproduced : tally Token.producedBy (tokens (items.set i item')) i =
      produced items i := produced_set hitem hsame i
  rw [counted, tokens_settle, Token.tally_counted_settle _ i item.corr hgroup, hproduced,
    if_congr eq_comm rfl rfl]
  simp only [counted, ownCount, Token.counted, Item.token, hlive, hspent, hproducer, and_self,
    if_true, Option.some.injEq, false_and, if_false, reduceCtorEq] at hset ⊢
  omega

end Traced

def Item.Shape (item : Item) (produced : Nat) : Prop :=
  match item.stage with
  | .queued => item.trigger = false
  | .invoking => item.trigger = false
  | .running [] => True
  | .running ops =>
    if item.trigger then item.producer = none ∧ ∃ key, ops = [.deliver key item.datagram]
    else balanced item.corr produced ops = true
  | .notifying call _ ops => call.id = item.corr ∧ ops = []
  | .finishing c ops => c.id = item.corr ∧ ops = []

structure Wellformed (s : Pipeline) : Prop where
  shape : ∀ (i : Nat) (item : Item), s.items[i]? = some item → item.Shape (produced s.items i)
  traced : Traced s.items
  parked : s.parked = []

variable {n : Nat} {ops : List Op} {op : Op}

theorem balanced_cons (h : balanced id n (op :: ops) = true) :
    (∃ key datagram, op = .deliver key datagram ∧ datagram.correlationID = id ∧
        balanced id (n + 1) ops = true ∧ ops ≠ []) ∨
      ∃ call, op = .report call ∧ ops = [] ∧ call.id = id ∧ call.io.outputs.length = n := by
  cases op with
  | deliver key datagram =>
    simp only [balanced, Bool.and_eq_true, decide_eq_true_eq] at h
    refine .inl ⟨key, datagram, rfl, h.1, h.2, ?_⟩
    rintro rfl
    simp at h
  | report call =>
    cases ops with
    | nil =>
      simp only [balanced, Bool.and_eq_true, decide_eq_true_eq] at h
      exact .inr ⟨call, rfl, rfl, h.1, h.2⟩
    | cons op ops => simp at h
  | park => simp at h

theorem Item.settle_of_producer_eq_none (h : item.producer = none) (i : Nat) :
    item.settle i = item := by
  simp [Item.settle, h]

theorem Item.Shape.settle (h : item.Shape n) (i : Nat) : (item.settle i).Shape n := by
  unfold Item.Shape at h ⊢
  simp only [Item.stage_settle, Item.trigger_settle, Item.corr_settle]
  split
  case h_4 hstage =>
    simp only [hstage] at h
    split at h
    case isTrue htrigger =>
      rw [if_pos htrigger, Item.settle_of_producer_eq_none h.1]
      exact h
    case isFalse htrigger =>
      rw [if_neg htrigger]
      exact h
  all_goals simp_all

theorem Item.shape_running (hstage : item.stage = .running (op :: ops)) :
    item.Shape n ↔
      (item.trigger = true ∧ item.producer = none ∧
          (∃ key, op = .deliver key item.datagram) ∧ ops = []) ∨
        (item.trigger = false ∧ balanced item.corr n (op :: ops) = true) := by
  unfold Item.Shape
  rw [hstage]
  cases item.trigger with
  | false | true => simp

namespace Wellformed

variable {s s' : Pipeline}

theorem setStage (h : Wellformed s) (hitem : s.items[i]? = some item) (stage : Stage)
    (hproducing : item.producing = false)
    (hlive : stage.live = item.stage.live ∨ (item.producer = none ∧ stage.live = false))
    (hshape : Item.Shape { item with stage := stage } 0)
    (hitems : s'.items = s.items.set i { item with stage := stage })
    (hparked : s'.parked = s.parked) : Wellformed s' := by
  have hsame : Token.producedBy (Item.token { item with stage := stage }) =
      item.token.producedBy := by
    rcases hlive with hlive | ⟨hproducer, _⟩
    · rw [Item.token, hlive]
      rfl
    · simp [Token.producedBy, hproducer]
  refine ⟨?_, ?_, hparked.trans h.parked⟩
  · intro k other hother
    rw [hitems, produced_set hitem hsame]
    rw [hitems] at hother
    rcases getElem?_set_eq_some hother with ⟨rfl, rfl⟩ | ⟨_, hold⟩
    · rw [h.traced.produced_eq_zero hitem hproducing]
      exact hshape
    · exact h.shape k other hold
  · rw [hitems]
    refine h.traced.set hitem rfl rfl ?_ ?_
    · intro hnow
      rcases hlive with hlive | ⟨_, hspent⟩
      · exact hlive ▸ hnow
      · rw [hspent] at hnow
        contradiction
    · intro hdelivering
      rw [hproducing] at hdelivering
      contradiction

theorem concat (h : Wellformed s) {new : Item} (hproducer : new.producer = none)
    (hshape : ∀ n, new.Shape n) (hitems : s'.items = s.items ++ [new])
    (hparked : s'.parked = s.parked) : Wellformed s' := by
  have hnone : new.token.producedBy = none := by simp [Token.producedBy, hproducer]
  refine ⟨?_, ?_, hparked.trans h.parked⟩
  · intro k other hother
    rw [hitems] at hother
    rcases getElem?_concat_eq_some hother with hold | ⟨_, rfl⟩
    · rw [hitems, produced_concat]
      simp only [ownCount, hnone]
      exact h.shape k other hold
    · exact hshape _
  · rw [hitems]
    refine h.traced.concat ?_
    intro j hj
    rw [hproducer] at hj
    contradiction

theorem deliver (h : Wellformed s) (hitem : s.items[i]? = some item)
    (htrigger : item.trigger = false) {key : Endpoint} {datagram : Datagram} {ops : List Op}
    (hstage : item.stage = .running (.deliver key datagram :: ops))
    (hcorr : datagram.correlationID = item.corr)
    (hops : balanced item.corr (produced s.items i + 1) ops = true) (hne : ops ≠ []) :
    Wellformed (s.deliver i item key datagram ops) := by
  obtain ⟨op, ops, rfl⟩ := List.exists_cons_of_ne_nil hne
  set item' : Item := { item with stage := .running (op :: ops) } with hitem'
  set new : Item := ⟨key, datagram, some i, false, .queued⟩ with hnew
  have hitems : (s.deliver i item key datagram (op :: ops)).items =
      s.items.set i item' ++ [new] := by
    simp [Pipeline.deliver, htrigger, hitem', hnew]
  have hproducing : item'.producing = true := by simp [hitem', Item.producing, htrigger]
  have hsame : item'.token.producedBy = item.token.producedBy := by
    simp [hitem', Token.producedBy, Stage.live, hstage]
  have hproduced : ∀ k, produced (s.deliver i item key datagram (op :: ops)).items k =
      produced s.items k + if i = k then 1 else 0 := by
    intro k
    rw [hitems, produced_concat, produced_set hitem hsame]
    simp [ownCount, Token.producedBy, hnew, Stage.live]
  refine ⟨?_, ?_, h.parked⟩
  · intro k other hother
    rw [hproduced]
    rcases getElem?_concat_eq_some hother with hold | ⟨_, rfl⟩
    · rcases getElem?_set_eq_some hold with ⟨rfl, rfl⟩ | ⟨hki, hold⟩
      · rw [if_pos rfl]
        exact (Item.shape_running rfl).mpr (.inr ⟨htrigger, hops⟩)
      · rw [if_neg (Ne.symm hki)]
        exact h.shape k other hold
    · rfl
  · have htraced : Traced (s.items.set i item') := by
      refine h.traced.set hitem rfl rfl (fun _ => ?_) fun _ => hproducing
      simp [hstage, Stage.live]
    rw [hitems]
    refine htraced.concat ?_
    rintro j ⟨⟩
    obtain ⟨hlt, _⟩ := List.getElem?_eq_some_iff.mp hitem
    exact ⟨item', List.getElem?_set_self hlt, hproducing, hcorr.symm⟩

theorem report (h : Wellformed s) (hitem : s.items[i]? = some item)
    (hproducer : item.producer = none) {call : EventCall} {done : Option ExecState}
    (hcall : call.id = item.corr)
    (hitems : s'.items =
      (s.items.set i { item with stage := .notifying call done [] }).map (Item.settle i))
    (hparked : s'.parked = s.parked) :
    Wellformed s' := by
  have hsame : Token.producedBy
      (Item.token { item with stage := .notifying call done [] }) = item.token.producedBy := by
    simp [Token.producedBy, hproducer]
  refine ⟨?_, ?_, hparked.trans h.parked⟩
  · intro k other hother
    rw [hitems, List.getElem?_map, Option.map_eq_some_iff] at hother
    obtain ⟨old, hold, rfl⟩ := hother
    apply Item.Shape.settle
    rcases getElem?_set_eq_some hold with ⟨rfl, rfl⟩ | ⟨hki, hold⟩
    · exact ⟨hcall, rfl⟩
    · rw [hitems, produced_settle _ hki, produced_set hitem hsame]
      exact h.shape k old hold
  · rw [hitems]
    exact h.traced.settle hitem rfl

end Wellformed

end DataPipe.Flow
