import DataPipe.Flow.HotDeploy
import DataPipe.Foundation.Joined

/-!
# The identity of an inbox

An inbox is carried over to the next deploy when its fingerprint is unchanged.  The text behind
it is the overflow spec of the node, followed without a separator by the sorted names of the
sources, joined by commas; a name is a node id and a port joined by a colon.  The text
determines both only if the separators do not occur in the names and no spec runs on into the
list of sources.
-/

namespace DataPipe.Flow

open DataPipe.Foundation

def FlowFile.sourceEnds (f : FlowFile) (key : Endpoint) : List Endpoint :=
  (f.graph.wires.filter (·.toEnd = key)).map Wire.fromEnd

def Endpoint.sourceName (e : Endpoint) : String := e.node ++ ":" ++ e.port

theorem sources_eq_map_sourceName (f : FlowFile) (key : Endpoint) :
    f.sources key = (f.sourceEnds key).map Endpoint.sourceName := by
  rw [FlowFile.sourceEnds, List.map_map]
  rfl

def FlowFile.sourceText (f : FlowFile) (key : Endpoint) : List Char :=
  (",".intercalate (sortStrings (f.sources key))).toList

variable {f g : FlowFile} {key : Endpoint} {d : Digest} {port : String}

theorem inboxFingerprint_eq_iff {m n : Node} :
    f.inboxFingerprint d m port = g.inboxFingerprint d n port ↔
      m.overflow.toList ++ f.sourceText ⟨m.id, port⟩ =
        n.overflow.toList ++ g.sourceText ⟨n.id, port⟩ := by
  rw [FlowFile.inboxFingerprint, FlowFile.inboxFingerprint, d.hex_injective.eq_iff,
    String.toList_append, String.toList_append]
  rfl

def Endpoint.Plain (e : Endpoint) : Prop :=
  ':' ∉ e.node.toList ∧ ',' ∉ e.node.toList ∧ ',' ∉ e.port.toList

instance (e : Endpoint) : Decidable e.Plain :=
  inferInstanceAs (Decidable (_ ∧ _ ∧ _))

theorem toList_sourceName (e : Endpoint) :
    e.sourceName.toList = e.node.toList ++ ':' :: e.port.toList := by
  simp [Endpoint.sourceName]

theorem eq_of_sourceName_eq {e e' : Endpoint} (he : e.Plain) (he' : e'.Plain)
    (h : e.sourceName = e'.sourceName) : e = e' := by
  have hlist := congrArg String.toList h
  rw [toList_sourceName, toList_sourceName] at hlist
  obtain ⟨hnode, hport⟩ := eq_of_append_cons_eq he.1 he'.1 hlist
  rw [String.toList_inj] at hnode hport
  cases e
  cases hnode
  cases hport
  rfl

theorem sourceText_eq (f : FlowFile) (key : Endpoint) :
    f.sourceText key =
      [','].intercalate ((sortStrings (f.sources key)).map String.toList) :=
  String.toList_intercalate

theorem mem_map_sortStrings (hplain : ∀ e ∈ f.sourceEnds key, e.Plain) :
    ∀ x ∈ (sortStrings (f.sources key)).map String.toList, x ≠ [] ∧ ',' ∉ x := by
  intro x hx
  obtain ⟨name, hname, rfl⟩ := List.mem_map.mp hx
  rw [sortStrings, List.mem_insertionSort, sources_eq_map_sourceName] at hname
  obtain ⟨e, he, rfl⟩ := List.mem_map.mp hname
  rw [toList_sourceName]
  simp [(hplain e he).2.1, (hplain e he).2.2]

theorem sourceEnds_perm_of_sourceText_eq (hf : ∀ e ∈ f.sourceEnds key, e.Plain)
    (hg : ∀ e ∈ g.sourceEnds key, e.Plain) (h : f.sourceText key = g.sourceText key) :
    (f.sourceEnds key).Perm (g.sourceEnds key) := by
  rw [sourceText_eq, sourceText_eq] at h
  have hnames := eq_of_intercalate_eq (mem_map_sortStrings hf) (mem_map_sortStrings hg) h
  have hsorted : sortStrings (f.sources key) = sortStrings (g.sources key) :=
    List.map_injective_iff.mpr (fun _ _ => String.toList_inj.mp) hnames
  have hsources : (f.sources key).Perm (g.sources key) :=
    calc (f.sources key).Perm (sortStrings (f.sources key)) :=
          (List.perm_insertionSort _ _).symm
      _ = sortStrings (g.sources key) := hsorted
      List.Perm _ (g.sources key) := List.perm_insertionSort _ _
  rw [sources_eq_map_sourceName, sources_eq_map_sourceName] at hsources
  refine perm_of_map_perm ?_ hsources
  have hall : ∀ e, e ∈ f.sourceEnds key ∨ e ∈ g.sourceEnds key → e.Plain :=
    fun e he => he.elim (hf e) (hg e)
  intro e he e' he' hname
  exact eq_of_sourceName_eq (hall e he) (hall e' he') hname

/--
The two texts of one inbox can be compared part by part: the names of its
sources are plain, and unless the sources are listed alike, neither overflow
spec is the other one continued by what begins its list of sources.
-/
def SeparableAt (f g : FlowFile) (m n : Node) (key : Endpoint) : Prop :=
  (∀ e ∈ f.sourceEnds key, e.Plain) ∧ (∀ e ∈ g.sourceEnds key, e.Plain) ∧
    (f.sourceText key = g.sourceText key ∨
      ¬ RunsOn m.overflow.toList (f.sourceText key) n.overflow.toList ∧
        ¬ RunsOn n.overflow.toList (g.sourceText key) m.overflow.toList)

instance (f g : FlowFile) (m n : Node) (key : Endpoint) : Decidable (SeparableAt f g m n key) :=
  inferInstanceAs (Decidable (_ ∧ _ ∧ (_ ∨ _ ∧ _)))

def Separable (reg : Registry) (f g : FlowFile) : Prop :=
  ∀ n ∈ g.graph.nodes, ∀ m ∈ f.graph.nodes, m.id = n.id →
    ∀ port ∈ reg.inputs n, SeparableAt f g m n ⟨n.id, port⟩

instance (reg : Registry) (f g : FlowFile) : Decidable (Separable reg f g) := by
  unfold Separable
  refine @List.decidableBAll _ _ (fun n => @List.decidableBAll _ _ (fun m => ?_) _) _
  refine @instDecidableForall _ _ inferInstance ?_
  exact @List.decidableBAll _ _ (fun port => inferInstance) _

structure SameInbox (f g : FlowFile) (m n : Node) (key : Endpoint) : Prop where
  overflow : m.overflow = n.overflow
  sources : (f.sourceEnds key).Perm (g.sourceEnds key)

theorem sameInbox_of_fingerprint {m n : Node} (hid : m.id = n.id)
    (hsep : SeparableAt f g m n ⟨n.id, port⟩)
    (h : f.inboxFingerprint d m port = g.inboxFingerprint d n port) :
    SameInbox f g m n ⟨n.id, port⟩ := by
  obtain ⟨hf, hg, hcut⟩ := hsep
  rw [inboxFingerprint_eq_iff, hid] at h
  have hparts : m.overflow.toList = n.overflow.toList ∧
      f.sourceText ⟨n.id, port⟩ = g.sourceText ⟨n.id, port⟩ := by
    rcases hcut with hlist | ⟨hm, hn⟩
    · rw [hlist] at h
      exact ⟨List.append_cancel_right h, hlist⟩
    · exact eq_of_append_eq hm hn h
  exact ⟨String.toList_inj.mp hparts.1, sourceEnds_perm_of_sourceText_eq hf hg hparts.2⟩

def policyOf (w : Bus.Wire Datagram) : Bus.OverflowPolicy × Int :=
  (w.cfg.overflow, w.cfg.sampleEvery)

theorem parseOverflow_sample_pos {spec : String}
    (h : (parseOverflow spec).1 = .sample) : 1 ≤ (parseOverflow spec).2 := by
  unfold parseOverflow at h ⊢
  split
  case h_1 rest hrest =>
    split
    case h_1 => simp only; omega
    case h_2 => decide
  case h_2 hnone =>
    rw [hnone] at h
    simp only at h
    split at h
    case isTrue => contradiction
    case isFalse => split at h <;> contradiction

theorem policyOf_newInbox (spec : String) : policyOf (newInbox spec) = parseOverflow spec := by
  have hpos : (parseOverflow spec).1 = .sample → 1 ≤ (parseOverflow spec).2 :=
    parseOverflow_sample_pos
  simp only [policyOf, newInbox, Bus.Wire.newWire, Bus.WireConfig.normalized]
  rw [if_neg]
  intro hlow
  have := hpos hlow.1
  omega

structure InboxesOf (reg : Registry) (d : Digest) (f : FlowFile) (t : Inboxes) : Prop where
  stamps : ∀ key stamp, t.stamp.lookup key = some stamp ↔
    (key, stamp) ∈ computeInboxFingerprints reg d f
  created : ∀ {key ref}, t.ref.lookup key = some ref →
    ∃ n w, f.nodeByID key.node = some n ∧ t.pool[ref]? = some w ∧
      w.cfg = (newInbox n.overflow).cfg

section Reconcile

variable {reg : Registry} {t : Inboxes}

/-- An inbox after reconciling: carried over under an unchanged fingerprint, or new. -/
inductive InboxOrigin (reg : Registry) (d : Digest) (f g : FlowFile) (t : Inboxes)
    (key : Endpoint) (ref : Nat) (n : Node) : Prop where
  | carried (m : Node) (old : m ∈ f.graph.nodes) (id : m.id = n.id)
      (same : f.inboxFingerprint d m key.port = g.inboxFingerprint d n key.port)
      (held : t.ref.lookup key = some ref)
      (pool : (reconcileInboxes reg d g t).pool[ref]? = t.pool[ref]?)
  | fresh (above : t.pool.length ≤ ref)
      (pool : (reconcileInboxes reg d g t).pool[ref]? = some (newInbox n.overflow))

variable {ref : Nat}

theorem inboxOrigin_reconcile (hnodup : (g.graph.nodes.map Node.id).Nodup)
    (ht : InboxesOf reg d f t) (h : (reconcileInboxes reg d g t).ref.lookup key = some ref) :
    ∃ n ∈ g.graph.nodes, n.id = key.node ∧ key.port ∈ reg.inputs n ∧
      InboxOrigin reg d f g t key ref n := by
  have hcons : ResourceTable.Consistent (computeInboxFingerprints reg d g) :=
    consistent_computeInboxFingerprints hnodup
  have hmem : key ∈ (reconcileInboxes reg d g t).stamp := by
    rw [← (reconcileInboxes reg d g t).mem_iff, ← AList.lookup_isSome, h]
    rfl
  rw [← AList.lookup_isSome, Option.isSome_iff_exists] at hmem
  obtain ⟨stamp, hstamp⟩ := hmem
  have hwanted := (ResourceTable.stamp_reconcile _ _ hcons key stamp).mp hstamp
  obtain ⟨n, hn, hid, hport, rfl⟩ := mem_computeInboxFingerprints.mp hwanted
  refine ⟨n, hn, hid, hport, ?_⟩
  by_cases hold : t.stamp.lookup key = some (g.inboxFingerprint d n key.port)
  · have hkeeps : t.Keeps (reconcileInboxes reg d g t) key :=
      ResourceTable.keeps_reconcile _ _ hcons hwanted hold
    obtain ⟨m, hm, hmid, _, hsame⟩ :=
      mem_computeInboxFingerprints.mp ((ht.stamps key _).mp hold)
    have href := hkeeps.ref ▸ h
    exact .carried m hm (hmid.trans hid.symm) hsame.symm href (hkeeps.pool ref href)
  · obtain ⟨r, hr, habove, hpool⟩ :=
      ResourceTable.fresh_reconcile Bus.Wire.close (freshInbox g) hcons hwanted hold
    have heq : r = ref := Option.mem_unique hr h
    subst heq
    refine .fresh habove (hpool.trans ?_)
    rw [freshInbox, ← hid, nodeByID_of_mem hnodup hn]
    rfl

theorem inboxesOf_reconcile (haccepts : reg.Accepts g) (hsep : Separable reg f g)
    (hf : (f.graph.nodes.map Node.id).Nodup) (ht : InboxesOf reg d f t) :
    InboxesOf reg d g (reconcileInboxes reg d g t) where
  stamps := ResourceTable.stamp_reconcile _ _
    (consistent_computeInboxFingerprints haccepts.nodes_nodup)
  created := by
    intro key ref href
    obtain ⟨n, hn, hid, hport, horigin⟩ :=
      inboxOrigin_reconcile haccepts.nodes_nodup ht href
    have hfind : g.nodeByID key.node = some n := by
      rw [← hid]
      exact nodeByID_of_mem haccepts.nodes_nodup hn
    cases horigin with
    | carried m hm hmid hsame hheld hpool =>
      obtain ⟨m', w, hm', hw, hcfg⟩ := ht.created hheld
      have heq : m' = m := by
        rw [← hid, ← hmid, nodeByID_of_mem hf hm] at hm'
        exact (Option.some.inj hm').symm
      subst heq
      have hkept := sameInbox_of_fingerprint hmid (hsep n hn m' hm hmid _ hport) hsame
      refine ⟨n, w, hfind, hpool.trans hw, ?_⟩
      rw [hcfg, hkept.overflow]
    | fresh habove hpool => exact ⟨n, newInbox n.overflow, hfind, hpool, rfl⟩

theorem sameInbox_of_carried (haccepts : reg.Accepts g) (hsep : Separable reg f g)
    (ht : InboxesOf reg d f t) (hold : t.ref.lookup key = some ref)
    (hnew : (reconcileInboxes reg d g t).ref.lookup key = some ref) :
    ∃ m ∈ f.graph.nodes, ∃ n ∈ g.graph.nodes, m.id = key.node ∧ n.id = key.node ∧
      SameInbox f g m n key := by
  obtain ⟨n, hn, hid, hport, horigin⟩ :=
    inboxOrigin_reconcile haccepts.nodes_nodup ht hnew
  cases horigin with
  | carried m hm hmid hsame hheld hpool =>
    have hkept := sameInbox_of_fingerprint hmid (hsep n hn m hm hmid _ hport) hsame
    rw [hid] at hkept hmid
    exact ⟨m, hm, n, hn, hmid, hid, hkept⟩
  | fresh habove hpool =>
    have hlt := ResourceTable.ref_lt hold
    omega

end Reconcile

/--
After a call every inbox has the policy that the file just deployed asks for,
and an inbox that the call carried over serves the same spec and sources.
-/
structure InboxSound (s s' : Live) : Prop where
  created : ∀ {key ref}, s'.deployment.inboxes.ref.lookup key = some ref →
    ∃ n w, s'.file.nodeByID key.node = some n ∧
      s'.deployment.inboxes.pool[ref]? = some w ∧
      policyOf w = parseOverflow n.overflow
  carried : ∀ {key ref}, s.deployment.inboxes.ref.lookup key = some ref →
    s'.deployment.inboxes.ref.lookup key = some ref →
    ∃ m n, s.file.nodeByID key.node = some m ∧ s'.file.nodeByID key.node = some n ∧
      SameInbox s.file s'.file m n key

structure Filed (reg : Registry) (d : Digest) (s : Live) : Prop where
  accepts : reg.Accepts s.file
  inboxes : InboxesOf reg d s.file s.deployment.inboxes

theorem filed_fresh (reg : Registry) (d : Digest) (dataDir : String)
    (env : List (String × String)) : Filed reg d (.fresh dataDir env) where
  accepts := (synced_start reg d).accepts
  inboxes := by
    refine ⟨(synced_start reg d).stamps, ?_⟩
    intro key ref href
    simp [Live.fresh, newDeployment, ResourceTable.empty] at href

theorem filed_step {reg : Registry} {s : Live} {call : DeployCall} {s' : Live} (hs : Filed reg d s)
    (hsep : Separable reg s.file call.file) (h : s.attempt reg d call = some s') :
    Filed reg d s' := by
  have hr := attemptResult_of_attempt h
  refine ⟨hr.file ▸ hr.accepts, ?_⟩
  rw [hr.file, hr.inboxes]
  exact inboxesOf_reconcile hr.accepts hsep hs.accepts.nodes_nodup hs.inboxes

/--
In every sequence of deploys whose consecutive files can be told apart, the
identity of an inbox is sound at every call.
-/
theorem inbox_identity_sound (reg : Registry) (d : Digest) (dataDir : String)
    (env : List (String × String)) (calls : List DeployCall) (call : DeployCall) (s s' : Live)
    (hmeets : Meets (Live.attempt reg d) (fun s call => Separable reg s.file call.file)
      (.fresh dataDir env) calls)
    (hrun : run (Live.attempt reg d) (.fresh dataDir env) calls = some s)
    (hsep : Separable reg s.file call.file) (hcall : s.attempt reg d call = some s') :
    InboxSound s s' := by
  have hs := run_invariant_of_meets filed_step (filed_fresh reg d dataDir env) hmeets hrun
  have hr := attemptResult_of_attempt hcall
  constructor
  · intro key ref href
    obtain ⟨n, w, hn, hw, hcfg⟩ := (filed_step hs hsep hcall).inboxes.created href
    refine ⟨n, w, hn, hw, ?_⟩
    rw [policyOf, hcfg, ← policyOf, policyOf_newInbox]
  · intro key ref hold hnew
    rw [hr.inboxes] at hnew
    obtain ⟨m, hm, n, hn, hmid, hnid, hsame⟩ :=
      sameInbox_of_carried hr.accepts hsep hs.inboxes hold hnew
    rw [hr.file]
    refine ⟨m, n, ?_, ?_, hsame⟩
    · rw [← hmid]
      exact nodeByID_of_mem hs.accepts.nodes_nodup hm
    · rw [← hnid]
      exact nodeByID_of_mem hr.accepts.nodes_nodup hn

theorem inbox_identity_sound_overflow :
    ∃ s s', (deployOf 0 (pipeFile "" [])).file = s.file ∧
      s.attempt smallRegistry plainDigest (deployOf 0 (pipeFile "sample:5" [])) = some s' ∧
      InboxSound s s' := by
  obtain ⟨s, hs, hfile, s', hs', -⟩ := sampled_after_pipe
  have hsep : Separable smallRegistry s.file (pipeFile "sample:5" []) := by
    rw [hfile]
    decide +kernel
  exact ⟨s, s', hfile.symm, hs', inbox_identity_sound _ plainDigest _ _ _ _ s s'
    (by decide +kernel) hs hsep hs'⟩

/-- `b` fed by one of two sources; the id of the first is chosen by the caller. -/
def forkFile (first overflow source : String) : FlowFile where
  id := "fork"
  mode := "streaming"
  graph :=
    { nodes := [{ id := first, typeName := "inject" }, { id := "a", typeName := "inject" },
        { id := "b", typeName := "debug-log", overflow := overflow }]
      wires := [⟨"w", ⟨source, "out"⟩, ⟨"b", "in"⟩⟩] }

/--
The spec `dropOldest` followed by the source `a:out` is the text of the empty
spec followed by the source `dropOldesta:out`: the blocking inbox of the first
deploy is carried over.
-/
theorem inbox_identity_collision :
    ∃ s s', run (Live.attempt smallRegistry plainDigest) (.fresh "" [])
        [deployOf 0 (forkFile "dropOldesta" "" "dropOldesta")] = some s ∧
      s.attempt smallRegistry plainDigest
        (deployOf 0 (forkFile "dropOldesta" "dropOldest" "a")) = some s' ∧
      ¬ InboxSound s s' := by
  simp only [exists_and_left]
  refine exists_some_imp (fun s => ∃ s', s.attempt smallRegistry plainDigest
      (deployOf 0 (forkFile "dropOldesta" "dropOldest" "a")) = some s' ∧
    s'.deployment.inboxes.ref.lookup ⟨"b", "in"⟩ = some 0 ∧
    (s'.deployment.inboxes.pool[0]?.map policyOf) = some (.block, 0) ∧
    (s'.file.nodeByID "b").map (fun n => parseOverflow n.overflow) = some (.dropOldest, 0))
    (by rw [plainDigest_eq]; decide +kernel) ?_
  rintro s - ⟨s', hs', href, hpool, hnode⟩
  refine ⟨s', hs', fun hsound => ?_⟩
  obtain ⟨n, w, hn, hw, hpolicy⟩ := hsound.created href
  rw [hn, Option.map_some, Option.some.injEq, ← hpolicy] at hnode
  rw [hw, Option.map_some, hnode] at hpool
  simp at hpool

end DataPipe.Flow
