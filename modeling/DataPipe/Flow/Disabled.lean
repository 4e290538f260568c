import DataPipe.Flow.HotDeploy

/-!
# Disabled nodes and flows

A flow file can mark a node, or the whole flow, as disabled.  `Deploy` reads
neither flag: the flag of a node is only part of its fingerprint, and every
node of the file is started.
-/

namespace DataPipe.Flow

open DataPipe.Foundation

def FlowFile.Enabled (f : FlowFile) (n : Node) : Prop :=
  f.disabled = false ∧ n.disabled = false

instance (f : FlowFile) (n : Node) : Decidable (f.Enabled n) :=
  inferInstanceAs (Decidable (_ ∧ _))

/--
What the flags ask of one call: no disabled node runs, nothing runs in a
disabled flow, a call that reports no error starts every node that became
enabled, and it leaves the other nodes that did not change alone.
-/
structure HonoursFlags (reg : Registry) (d : Digest) (s : Live) (call : DeployCall)
    (s' : Live) : Prop where
  nodes : ∀ n ∈ call.file.graph.nodes, n.disabled = true → n.id ∉ s'.deployment.nodes
  flow : call.file.disabled = true → ∀ id, id ∉ s'.deployment.nodes
  cleared : (s.deployment.deploy reg d call).2 = none →
    ∀ n ∈ call.file.graph.nodes, ∀ m ∈ s.file.graph.nodes, n.id = m.id →
      ¬ s.file.Enabled m → call.file.Enabled n →
        n.id ∉ s.deployment.nodes ∧ n.id ∈ s'.deployment.nodes
  others : ∀ n ∈ call.file.graph.nodes, ∀ m ∈ s.file.graph.nodes, n.id = m.id →
    s.file.Enabled m → call.file.Enabled n →
      call.file.fingerprint d n = s.file.fingerprint d m →
        ∀ rn, s.deployment.nodes.lookup n.id = some rn →
          s'.deployment.nodes.lookup n.id = some rn

def FlowFile.NothingDisabled (f : FlowFile) : Prop :=
  ∀ n ∈ f.graph.nodes, f.Enabled n

instance (f : FlowFile) : Decidable f.NothingDisabled :=
  @List.decidableBAll _ _ (fun _ => inferInstance) _

section Call

variable {reg : Registry} {d : Digest} {s s' : Live} {call : DeployCall} {n : Node}

theorem AttemptResult.keeps (h : AttemptResult reg d s call s') (hs : NodesFiled d s) {m : Node}
    (hn : n ∈ call.file.graph.nodes) (hm : m ∈ s.file.graph.nodes)
    (hnodup : (s.file.graph.nodes.map Node.id).Nodup) (hid : n.id = m.id)
    (hsame : call.file.fingerprint d n = s.file.fingerprint d m) {rn : RunningNode}
    (hrn : s.deployment.nodes.lookup n.id = some rn) :
    s'.deployment.nodes.lookup n.id = some rn := by
  apply h.starts.kept
  refine lookup_retain.mpr ⟨hrn, decide_eq_true ?_⟩
  obtain ⟨m', hm', hfp⟩ := hs n.id rn hrn
  rw [hid, nodeByID_of_mem hnodup hm] at hm'
  cases hm'
  rw [FlowFile.newNodeFP, nodeByID_of_mem h.accepts.nodes_nodup hn, hfp]
  exact hsame

theorem mem_nodes_of_attempt (h : s.attempt reg d call = some s')
    (hok : (s.deployment.deploy reg d call).2 = none) (hn : n ∈ call.file.graph.nodes) :
    n.id ∈ s'.deployment.nodes := by
  have hdeploy : s.deploy reg d call = some s' := by
    unfold Live.attempt at h
    split at h
    case isTrue =>
      cases h
      unfold Live.deploy
      split
      case h_1 heq => rw [heq]
      case h_2 heq =>
        rw [heq] at hok
        contradiction
    case isFalse => contradiction
  exact (deployResult_of_deploy hdeploy).running n hn

theorem HonoursFlags.nothingDisabled (h : HonoursFlags reg d s call s')
    (hcall : s.attempt reg d call = some s')
    (hok : (s.deployment.deploy reg d call).2 = none) : call.file.NothingDisabled := by
  intro n hn
  have hrunning := mem_nodes_of_attempt hcall hok hn
  constructor
  · rw [Bool.eq_false_iff]
    intro hdisabled
    exact h.flow hdisabled n.id hrunning
  · rw [Bool.eq_false_iff]
    intro hdisabled
    exact h.nodes n hn hdisabled hrunning

theorem honoursFlags_of_nothingDisabled (h : AttemptResult reg d s call s') (hs : NodesFiled d s)
    (hnodup : (s.file.graph.nodes.map Node.id).Nodup) (hold : s.file.NothingDisabled)
    (hnew : call.file.NothingDisabled) : HonoursFlags reg d s call s' where
  nodes := by
    intro n hn hdisabled
    rw [(hnew n hn).2] at hdisabled
    contradiction
  flow := by
    intro hdisabled id hmem
    rw [← AList.lookup_isSome, Option.isSome_iff_exists] at hmem
    obtain ⟨rn, hrn⟩ := hmem
    -- only nodes of the file run, and the file has none
    obtain ⟨n, hn, _⟩ := h.nodesFiled hs id rn hrn
    rw [h.file] at hn
    rw [(hnew n (nodeByID_eq_some hn).1).1] at hdisabled
    contradiction
  cleared := fun _ _ _ m hm _ hdisabled => absurd (hold m hm) hdisabled
  others := fun _ hn _ hm hid _ _ hsame _ hrn => h.keeps hs hn hm hnodup hid hsame hrn

end Call

structure NothingDisabledSoFar (reg : Registry) (d : Digest) (s : Live) : Prop where
  accepts : reg.Accepts s.file
  filed : NodesFiled d s
  enabled : s.file.NothingDisabled

theorem nothingDisabledSoFar_fresh (reg : Registry) (d : Digest) (dataDir : String)
    (env : List (String × String)) : NothingDisabledSoFar reg d (.fresh dataDir env) where
  accepts := (synced_fresh reg d dataDir env).accepts
  filed := fun _ _ => (synced_fresh reg d dataDir env).nodes
  enabled := by simp [Live.fresh, Live.start, FlowFile.NothingDisabled]

theorem nothingDisabledSoFar_step {reg : Registry} {d : Digest} {s : Live} {call : DeployCall}
    {s' : Live} (hs : NothingDisabledSoFar reg d s) (hcall : call.file.NothingDisabled)
    (h : s.attempt reg d call = some s') : NothingDisabledSoFar reg d s' := by
  have hr := attemptResult_of_attempt h
  exact ⟨hr.file ▸ hr.accepts, hr.nodesFiled hs.filed, hr.file ▸ hcall⟩

/--
In every sequence of deploys whose files disable nothing, each call honours the
flags; and a call that reports no error honours them only if its file disables
nothing, whatever was deployed before.
-/
theorem flags_honoured_iff (reg : Registry) (d : Digest) (dataDir : String)
    (env : List (String × String)) (calls : List DeployCall) (call : DeployCall)
    (s s' : Live) (hrun : run (Live.attempt reg d) (.fresh dataDir env) calls = some s)
    (hcall : s.attempt reg d call = some s') :
    ((∀ c ∈ call :: calls, c.file.NothingDisabled) → HonoursFlags reg d s call s') ∧
      ((s.deployment.deploy reg d call).2 = none → HonoursFlags reg d s call s' →
        call.file.NothingDisabled) := by
  constructor
  · intro hall
    have hmeets : Meets (Live.attempt reg d) (fun _ c => c.file.NothingDisabled)
        (.fresh dataDir env) calls :=
      meets_of_forall (fun c hc => hall c (List.mem_cons_of_mem _ hc)) _
    have hs := run_invariant_of_meets nothingDisabledSoFar_step
      (nothingDisabledSoFar_fresh reg d dataDir env) hmeets hrun
    exact honoursFlags_of_nothingDisabled (attemptResult_of_attempt hcall) hs.filed
      hs.accepts.nodes_nodup hs.enabled (hall call List.mem_cons_self)
  · intro hok honours
    exact honours.nothingDisabled hcall hok

theorem flags_honoured_overflow :
    ∃ s s', s.attempt smallRegistry plainDigest (deployOf 0 (pipeFile "sample:5" [])) =
        some s' ∧
      "b" ∈ s'.deployment.nodes ∧
      HonoursFlags smallRegistry plainDigest s (deployOf 0 (pipeFile "sample:5" [])) s' := by
  obtain ⟨s, hrun, -, s', hcall, hmem⟩ := sampled_after_pipe
  refine ⟨s, s', hcall, AList.lookup_isSome.mp hmem, ?_⟩
  apply (flags_honoured_iff smallRegistry plainDigest "" [] [deployOf 0 (pipeFile "" [])] _
    s s' hrun hcall).1
  decide

def disabledSource : Node :=
  ⟨"c", "inject", 1, true, "", none, none, ""⟩

theorem disabledSource_runs :
    ∃ s', (Live.fresh "" []).attempt smallRegistry plainDigest
        (deployOf 0 (pipeFile "" [disabledSource])) = some s' ∧
      ¬ HonoursFlags smallRegistry plainDigest (.fresh "" [])
        (deployOf 0 (pipeFile "" [disabledSource])) s' := by
  refine exists_some_imp (fun s' => (s'.deployment.nodes.lookup "c").isSome)
    (by rw [plainDigest_eq]; decide +kernel) ?_
  intro s' _ hmem honours
  have hc : disabledSource ∈ (pipeFile "" [disabledSource]).graph.nodes := by simp [pipeFile]
  exact honours.nodes disabledSource hc rfl (AList.lookup_isSome.mp hmem)

end DataPipe.Flow
