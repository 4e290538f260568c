import DataPipe.ControlPlane.Import

/-!
# Importing what was exported

`buildExportBundle` replaces connection ids by numbered references and `importBundle` replaces
the references by ids, so together they rename the connections of the flows.  Into a project
without connections the renaming is injective and every new connection is a copy.  Into the
project of the flows it is the identity exactly when each connection in use is the one that its
name and type are looked up to.
-/

set_option linter.dupNamespace false

namespace DataPipe.ControlPlane

open DataPipe.Foundation DataPipe.Flow

/-! ## The references of an export -/

def ExportRefs.rename (refs : ExportRefs) (connection : String) : String :=
  (refs.refByConnectionID.lookup connection).getD ""

def ExportRefs.Extends (refs refs' : ExportRefs) : Prop :=
  ∀ x ref, refs.refByConnectionID.lookup x = some ref → refs'.refByConnectionID.lookup x = some ref

def refNumber (i : Nat) : String := "ref:" ++ toString i

theorem refNumber_injective {i j : Nat} (h : refNumber i = refNumber j) : i = j := by
  have hnumber : i.repr = j.repr := (String.append_right_inj "ref:").mp h
  have hdigits := congrArg String.toList hnumber
  rw [Nat.toList_repr, Nat.toList_repr] at hdigits
  rw [← Nat.ofDigitChars_ten_toDigits (n := i), hdigits, Nat.ofDigitChars_ten_toDigits]

/-- The references are numbered in order, and each stands for one connection that was found. -/
structure Numbered (getConnection : String → Option ConnectionRow) (refs : ExportRefs) : Prop where
  numbers : refs.connections.map ExportedConnection.ref =
    (List.range refs.connections.length).map refNumber
  found : ∀ x ref, refs.refByConnectionID.lookup x = some ref →
    x ≠ "" ∧ ∃ conn, getConnection x = some conn ∧ conn.exported ref ∈ refs.connections
  inj : ∀ x y ref, refs.refByConnectionID.lookup x = some ref →
    refs.refByConnectionID.lookup y = some ref → x = y

section Export

variable {floats : Float64Text} {getConnection : String → Option ConnectionRow}
  {refs refs' final : ExportRefs} {x : String}

theorem ExportRefs.Extends.refl (refs : ExportRefs) : refs.Extends refs := fun _ _ h => h

theorem ExportRefs.Extends.trans (h : refs.Extends refs') (h' : refs'.Extends final) :
    refs.Extends final := fun x ref hx => h' x ref (h x ref hx)

theorem numbered_nil : Numbered getConnection {} where
  numbers := rfl
  found := by simp
  inj := by simp

theorem Numbered.refs_nodup (h : Numbered getConnection refs) :
    (refs.connections.map ExportedConnection.ref).Nodup := by
  rw [h.numbers]
  exact List.nodup_range.map fun i j hij => refNumber_injective hij

theorem Numbered.mem_refs (h : Numbered getConnection refs) {ref : String}
    (hx : refs.refByConnectionID.lookup x = some ref) :
    ref ∈ refs.connections.map ExportedConnection.ref := by
  obtain ⟨-, conn, -, hmem⟩ := h.found x ref hx
  exact List.mem_map.mpr ⟨_, hmem, rfl⟩

theorem Numbered.next_notMem (h : Numbered getConnection refs) :
    refNumber refs.connections.length ∉ refs.connections.map ExportedConnection.ref := by
  rw [h.numbers]
  intro hmem
  obtain ⟨i, hi, hnumber⟩ := List.mem_map.mp hmem
  have hlt := List.mem_range.mp hi
  rw [refNumber_injective hnumber] at hlt
  exact Nat.lt_irrefl _ hlt

theorem Numbered.insert (h : Numbered getConnection refs) {conn : ConnectionRow} (hne : x ≠ "")
    (hconn : getConnection x = some conn) (hnew : refs.refByConnectionID.lookup x = none) :
    Numbered getConnection
        { refByConnectionID :=
            refs.refByConnectionID.insert x (refNumber refs.connections.length)
          connections := refs.connections ++ [conn.exported (refNumber refs.connections.length)] } ∧
      refs.Extends
        { refByConnectionID :=
            refs.refByConnectionID.insert x (refNumber refs.connections.length)
          connections :=
            refs.connections ++ [conn.exported (refNumber refs.connections.length)] } := by
  have hold : ∀ y ref, refs.refByConnectionID.lookup y = some ref → y ≠ x := by
    rintro y ref hy rfl
    rw [hnew] at hy
    contradiction
  refine ⟨⟨?_, ?_, ?_⟩, ?_⟩
  · rw [List.map_append, h.numbers, List.length_append, List.length_singleton, List.range_succ,
      List.map_append]
    rfl
  · intro y ref hy
    rcases lookup_insert_eq_some hy with ⟨rfl, rfl⟩ | hy
    · exact ⟨hne, conn, hconn, List.mem_append_right _ List.mem_cons_self⟩
    · obtain ⟨hyne, c, hc, hmem⟩ := h.found y ref hy
      exact ⟨hyne, c, hc, List.mem_append_left _ hmem⟩
  · -- the new number is not one of the references that stand
    have hfresh : ∀ y, refs.refByConnectionID.lookup y ≠ some (refNumber refs.connections.length) :=
      fun y hy => h.next_notMem (h.mem_refs hy)
    exact fun y z ref hy hz => lookup_insert_injective h.inj hfresh hy hz
  · intro y ref hy
    rw [AList.lookup_insert_ne (hold y ref hy)]
    exact hy

theorem Numbered.rename_eq_empty (h : Numbered getConnection refs)
    (hx : x = "" ∨ getConnection x = none) : refs.rename x = "" := by
  rw [ExportRefs.rename]
  cases hlookup : refs.refByConnectionID.lookup x with
  | none => rfl
  | some ref =>
    obtain ⟨hne, conn, hconn, -⟩ := h.found x ref hlookup
    rcases hx with hx | hx
    · exact absurd hx hne
    · rw [hx] at hconn
      contradiction

theorem Numbered.exportConnection (h : Numbered getConnection refs) (x : String) :
    Numbered getConnection (ControlPlane.exportConnection getConnection refs x).1 ∧
      refs.Extends (ControlPlane.exportConnection getConnection refs x).1 ∧
      ∀ final, Numbered getConnection final →
        (ControlPlane.exportConnection getConnection refs x).1.Extends final →
        (ControlPlane.exportConnection getConnection refs x).2 = final.rename x := by
  rw [ControlPlane.exportConnection]
  split
  next hempty =>
    exact ⟨h, .refl refs, fun final hfinal _ => (hfinal.rename_eq_empty (.inl hempty)).symm⟩
  next hne =>
    split
    next ref href =>
      refine ⟨h, .refl refs, fun final _ hext => ?_⟩
      rw [ExportRefs.rename, hext x ref href]
      rfl
    next hnew =>
      split
      next hnone =>
        exact ⟨h, .refl refs, fun final hfinal _ => (hfinal.rename_eq_empty (.inr hnone)).symm⟩
      next conn hconn =>
        obtain ⟨hnumbered, hextends⟩ := h.insert hne hconn hnew
        refine ⟨hnumbered, hextends, fun final _ hext => ?_⟩
        rw [ExportRefs.rename, hext x _ (AList.lookup_insert _)]
        rfl

theorem Numbered.exportNodes (h : Numbered getConnection refs) (nodes : List Format.Node) :
    Numbered getConnection (ControlPlane.exportNodes getConnection refs nodes).1 ∧
      refs.Extends (ControlPlane.exportNodes getConnection refs nodes).1 ∧
      ∀ final, Numbered getConnection final →
        (ControlPlane.exportNodes getConnection refs nodes).1.Extends final →
        (ControlPlane.exportNodes getConnection refs nodes).2 =
          nodes.map (Format.Node.renamed final.rename) := by
  induction nodes generalizing refs with
  | nil => exact ⟨h, .refl refs, fun _ _ _ => rfl⟩
  | cons n nodes ih =>
    obtain ⟨hhead, hextends, hfield⟩ := h.exportConnection n.connection
    obtain ⟨hrest, hextends', hnodes⟩ := ih hhead
    refine ⟨hrest, hextends.trans hextends', fun final hfinal hext => ?_⟩
    have hconnection := hfield final hfinal (hextends'.trans hext)
    simp only [ControlPlane.exportNodes, List.map_cons, List.cons.injEq]
    exact ⟨by rw [Format.Node.renamed, hconnection], hnodes final hfinal hext⟩

def ExportedAs (floats : Float64Text) (name : String → String) (f : FlowRow)
    (ef : ExportedFlow) : Prop :=
  ef.name = f.name ∧ ∃ file, Format.parse floats f.draftContent = some file ∧
    ef.content = (file.renamed name).marshalCanonical

theorem Numbered.exportFlows (h : Numbered getConnection refs) {flows : List FlowRow}
    {exported : List ExportedFlow}
    (hexport : ControlPlane.exportFlows getConnection floats refs flows = .ok (refs', exported)) :
    Numbered getConnection refs' ∧ refs.Extends refs' ∧
      List.Forall₂ (ExportedAs floats refs'.rename) flows exported := by
  induction flows generalizing refs exported with
  | nil =>
    cases hexport
    exact ⟨h, .refl _, .nil⟩
  | cons f flows ih =>
    cases hfile : Format.parse floats f.draftContent with
    | none => simp only [ControlPlane.exportFlows, hfile, reduceCtorEq] at hexport
    | some file =>
      simp only [ControlPlane.exportFlows, hfile] at hexport
      obtain ⟨hnumbered, hextends, hnodes⟩ := h.exportNodes file.graph.nodes
      split at hexport
      · contradiction
      next last rest hrest =>
        cases hexport
        obtain ⟨hlast, hextends', hflows⟩ := ih hnumbered hrest
        refine ⟨hlast, hextends.trans hextends', .cons ⟨rfl, file, hfile, ?_⟩ hflows⟩
        rw [hnodes _ hlast hextends']
        rfl

end Export

/-! ## What an import needs to succeed -/

/-- The next `n` draws succeed with ids that are in neither table. -/
structure FreshDraws (t : ImportTables) (draws : List (Option Draw)) (n : Nat) : Prop where
  enough : n ≤ draws.length
  unused : ∀ draw ∈ draws, ∃ d, draw = some d ∧ d.id ≠ "" ∧ d.id ∉ t.ids
  distinct : (draws.map (Option.map Draw.id)).Nodup

section Success

variable {floats : Float64Text} {existing : List ConnectionRow} {projectID : String}
  {t t' : ImportTables} {draws : List (Option Draw)} {n : Nat}

theorem FreshDraws.weaken {m : Nat} (h : FreshDraws t draws n) (hle : m ≤ n) :
    FreshDraws t draws m where
  enough := hle.trans h.enough
  unused := h.unused
  distinct := h.distinct

theorem FreshDraws.next (h : FreshDraws t draws (n + 1)) :
    ∃ d, draws.head?.join = some d ∧ d.id ∉ t.ids ∧
      ∀ t' : ImportTables, (∀ i ∈ t'.ids, i = d.id ∨ i ∈ t.ids) → FreshDraws t' draws.tail n := by
  cases draws with
  | nil => exact absurd h.enough (Nat.not_succ_le_zero n)
  | cons draw draws =>
    obtain ⟨d, rfl, -, hunused⟩ := h.unused draw List.mem_cons_self
    have hdistinct := List.nodup_cons.mp h.distinct
    refine ⟨d, rfl, hunused, fun t' hids => ⟨Nat.le_of_succ_le_succ h.enough, ?_, hdistinct.2⟩⟩
    intro other hother
    obtain ⟨e, rfl, hne, he⟩ := h.unused other (List.mem_cons_of_mem _ hother)
    refine ⟨e, rfl, hne, fun hmem => ?_⟩
    rcases hids e.id hmem with heq | hmem
    · exact hdistinct.1 (List.mem_map.mpr ⟨some e, hother, congrArg some heq⟩)
    · exact he hmem

theorem importConnections_ok (existing : List ConnectionRow) (projectID : String)
    {connections : List ExportedConnection} {k : Nat}
    (h : FreshDraws t draws (connections.length + k)) :
    ∃ s, connections.foldlM (importConnection existing projectID) { tables := t, draws } = .ok s ∧
      FreshDraws s.tables s.draws k := by
  have hstep : ∀ {ec rest s}, FreshDraws s.tables s.draws ((ec :: rest).length + k) →
      ∃ s', importConnection existing projectID s ec = .ok s' ∧
        FreshDraws s'.tables s'.draws (rest.length + k) := by
    intro ec rest s hdraws
    rw [List.length_cons, Nat.add_right_comm] at hdraws
    rw [importConnection]
    split
    · exact ⟨_, rfl, hdraws.weaken (Nat.le_succ _)⟩
    · obtain ⟨d, hd, hunused, hrest⟩ := hdraws.next
      have hnew : d.id ∉ s.tables.connections.map ConnectionRow.id :=
        fun hmem => hunused (List.mem_append_left _ hmem)
      rw [hd, ImportTables.createConnection, Option.bind_eq_bind, Option.bind_some]
      rw [if_neg hnew]
      refine ⟨_, rfl, hrest _ fun i hi => ?_⟩
      simp only [ImportTables.ids, List.map_append, List.mem_append, List.map_singleton,
        List.mem_singleton] at hi ⊢
      tauto
  have hloop : ∃ s, connections.foldlM (importConnection existing projectID)
      { tables := t, draws } = .ok s ∧ FreshDraws s.tables s.draws (([] : List _).length + k) :=
    foldlM_ok (fun rest (s : Importing) => FreshDraws s.tables s.draws (rest.length + k)) hstep h
  rw [List.length_nil, Nat.zero_add] at hloop
  exact hloop

theorem importFlows_ok (projectID : String) {flows : List ExportedFlow} {s : Importing}
    (h : FreshDraws s.tables s.draws flows.length)
    (hparse : ∀ ef ∈ flows, (Format.parse floats ef.content).isSome) :
    ∃ s', flows.foldlM (importFlow floats projectID) s = .ok s' := by
  have hstep : ∀ {ef rest s}, (FreshDraws s.tables s.draws (ef :: rest).length ∧
        ∀ other ∈ ef :: rest, (Format.parse floats other.content).isSome) →
      ∃ s', importFlow floats projectID s ef = .ok s' ∧ FreshDraws s'.tables s'.draws rest.length ∧
        ∀ other ∈ rest, (Format.parse floats other.content).isSome := by
    rintro ef rest s ⟨hdraws, hparse⟩
    obtain ⟨file, hfile⟩ := Option.isSome_iff_exists.mp (hparse ef List.mem_cons_self)
    obtain ⟨d, hd, hunused, hrest⟩ := hdraws.next
    have hnew : d.id ∉ s.tables.flows.map FlowRow.id :=
      fun hmem => hunused (List.mem_append_right _ hmem)
    rw [importFlow, hfile]
    dsimp only
    rw [hd, ImportTables.createFlow, Option.bind_eq_bind, Option.bind_some]
    rw [if_neg hnew]
    refine ⟨_, rfl, hrest _ fun i hi => ?_, fun other hother =>
      hparse other (List.mem_cons_of_mem _ hother)⟩
    simp only [ImportTables.ids, List.map_append, List.mem_append, List.map_singleton,
      List.mem_singleton] at hi ⊢
    tauto
  obtain ⟨s', hs', -⟩ :=
    foldlM_ok (fun (rest : List ExportedFlow) (s : Importing) =>
      FreshDraws s.tables s.draws rest.length ∧
        ∀ ef ∈ rest, (Format.parse floats ef.content).isSome) hstep ⟨h, hparse⟩
  exact ⟨s', hs'⟩

end Success

/-! ## What the references stand for -/

def StandsFor (existing : List ConnectionRow) (projectID : String) (t : ImportTables)
    (ec : ExportedConnection) (c : ConnectionRow) : Prop :=
  byNameType existing ec.name ec.typeName = some c ∨
    byNameType existing ec.name ec.typeName = none ∧ c ∈ t.connections ∧
      c.projectID = projectID ∧ c.name = ec.name ∧ c.typeName = ec.typeName ∧ c.config = ec.config

def Assigned (existing : List ConnectionRow) (projectID : String)
    (seen : List ExportedConnection) (s : Importing) : Prop :=
  (seen.map ExportedConnection.ref).Nodup → ∀ ec ∈ seen,
    ∃ c, s.idByRef.lookup ec.ref = some c.id ∧ StandsFor existing projectID s.tables ec c

structure Renewed (projectID : String) (t : ImportTables) (seen : List ExportedConnection)
    (s : Importing) : Prop where
  remapped : Remapped projectID t seen s
  draws : ∀ d, some d ∈ s.draws → d.id ≠ ""
  nonempty : ∀ ref id, s.idByRef.lookup ref = some id → id ≠ ""
  inj : ∀ ref ref' id, s.idByRef.lookup ref = some id → s.idByRef.lookup ref' = some id → ref = ref'

section Assign

variable {c : ConnectionRow}

variable {existing : List ConnectionRow} {projectID : String} {t t' : ImportTables}
  {s s' : Importing} {seen : List ExportedConnection} {ec : ExportedConnection} {draw : Option Draw}

theorem byNameType_isSome (h : c ∈ existing) : byNameType existing c.name c.typeName ≠ none := by
  intro hnone
  have hnot := List.find?_eq_none.mp hnone c (List.mem_reverse.mpr h)
  simp at hnot

theorem Resolved.standsFor (h : Resolved existing projectID draw ec t c t') :
    StandsFor existing projectID t' ec c := by
  cases h with
  | matched hlisted => exact .inl hlisted
  | created hnone hdraw hunused hproject hname htype hconfig =>
    have hmem : c ∈ t.connections ++ [c] := List.mem_append_right _ List.mem_cons_self
    exact .inr ⟨hnone, hmem, hproject, hname, htype, hconfig⟩

theorem Resolved.unlisted (h : Resolved [] projectID draw ec t c t') :
    draw.map Draw.id = some c.id ∧ c.id ∉ t.connections.map ConnectionRow.id := by
  cases h with
  | matched hlisted => nomatch hlisted
  | created hnone hdraw hunused => exact ⟨hdraw, hunused⟩

theorem StandsFor.mono (h : StandsFor existing projectID t ec c)
    (hsubset : t.connections ⊆ t'.connections) : StandsFor existing projectID t' ec c := by
  rcases h with hlisted | ⟨hnone, hmem, hrow⟩
  · exact .inl hlisted
  · exact .inr ⟨hnone, hsubset hmem, hrow⟩

theorem Assigned.step (hinv : Assigned existing projectID seen s)
    (h : importConnection existing projectID s ec = .ok s') :
    Assigned existing projectID (seen ++ [ec]) s' := by
  obtain ⟨c, hresolved, hrefs, -, -⟩ := importConnection_eq_ok h
  intro hnodup other hother
  rw [List.map_append, List.nodup_append] at hnodup
  obtain ⟨hseen, -, hdisjoint⟩ := hnodup
  rcases List.mem_append.mp hother with hold | hnew
  · have hne : other.ref ≠ ec.ref :=
      hdisjoint other.ref (List.mem_map_of_mem hold) ec.ref List.mem_cons_self
    obtain ⟨row, hlookup, hstands⟩ := hinv hseen other hold
    exact ⟨row, by rw [hrefs, AList.lookup_insert_ne hne, hlookup], hstands.mono hresolved.subset⟩
  · obtain rfl := List.mem_singleton.mp hnew
    exact ⟨c, by rw [hrefs, AList.lookup_insert], hresolved.standsFor⟩

theorem FreshDraws.renewed {draws : List (Option Draw)} {n : Nat} (h : FreshDraws t draws n)
    (hunique : (t.connections.map ConnectionRow.id).Nodup) :
    Renewed projectID t [] { tables := t, draws } where
  remapped := remapped_start hunique
  draws := by
    intro d hd
    obtain ⟨e, he, hne, -⟩ := h.unused _ hd
    exact Option.some.inj he ▸ hne
  nonempty := by simp
  inj := by simp

theorem Renewed.step (hlisting : Listed t projectID []) (hinv : Renewed projectID t seen s)
    (h : importConnection [] projectID s ec = .ok s') : Renewed projectID t (seen ++ [ec]) s' := by
  obtain ⟨c, hresolved, hrefs, hdraws, -⟩ := importConnection_eq_ok h
  have hnew : c.id ≠ "" ∧ ∀ ref, s.idByRef.lookup ref ≠ some c.id := by
    obtain ⟨hdraw, hunused⟩ := hresolved.unlisted
    obtain ⟨d, hd, hid⟩ := Option.map_eq_some_iff.mp hdraw
    have hmem : some d ∈ s.draws := List.mem_of_head? (Option.join_eq_some_iff.mp hd)
    refine ⟨hid ▸ hinv.draws d hmem, fun ref hlookup => hunused ?_⟩
    obtain ⟨row, hrow, hrowid, -⟩ := hinv.remapped.own ref c.id hlookup
    exact List.mem_map.mpr ⟨row, hrow, hrowid⟩
  refine ⟨hinv.remapped.step hlisting h, fun d hd => hinv.draws d (hdraws hd), ?_, ?_⟩
  · intro ref id hlookup
    rw [hrefs] at hlookup
    rcases lookup_insert_eq_some hlookup with ⟨-, hid⟩ | hold
    · exact hid ▸ hnew.1
    · exact hinv.nonempty ref id hold
  · intro ref ref' id hlookup hlookup'
    rw [hrefs] at hlookup hlookup'
    exact lookup_insert_injective hinv.inj hnew.2 hlookup hlookup'

end Assign

/-! ## The two together -/

def Copied (floats : Float64Text) (projectID : String) (name : String → String)
    (f copy : FlowRow) : Prop :=
  copy.projectID = projectID ∧ copy.name = f.name ∧
    ∃ file, Format.parse floats f.draftContent = some file ∧
      copy.draftContent = (file.renamed name).marshalCanonical

variable {c : ConnectionRow} {t : ImportTables}

section Compose

variable {floats : Float64Text} {projectID : String} {name name' : String → String}
  {flows copies : List FlowRow}

theorem copied_of_created {f copy : FlowRow} {ef : ExportedFlow}
    (h : ExportedAs floats name f ef) (h' : CreatedOf floats projectID name' ef copy) :
    Copied floats projectID (name' ∘ name) f copy := by
  obtain ⟨hname, file, hfile, hcontent⟩ := h
  obtain ⟨hproject, hname', file', hfile', hcontent'⟩ := h'
  rw [hcontent, Format.parse_marshalCanonical, Option.some.injEq] at hfile'
  refine ⟨hproject, hname'.trans hname, file, hfile, ?_⟩
  rw [hcontent', ← hfile', Format.FlowFile.marshalCanonical_renamed_canonicalized,
    Format.FlowFile.renamed_renamed]

variable {exported : List ExportedFlow}

theorem forall₂_copied (h : List.Forall₂ (ExportedAs floats name) flows exported)
    (h' : List.Forall₂ (CreatedOf floats projectID name') exported copies) :
    List.Forall₂ (Copied floats projectID (name' ∘ name)) flows copies := by
  induction h generalizing copies with
  | nil =>
    cases h'
    exact .nil
  | cons hf _ ih =>
    cases h' with
    | cons hcopy hrest => exact .cons (copied_of_created hf hcopy) (ih hrest)

theorem parses_of_exported (h : List.Forall₂ (ExportedAs floats name) flows exported) :
    ∀ ef ∈ exported, (Format.parse floats ef.content).isSome := by
  induction h with
  | nil => exact fun _ hef => absurd hef List.not_mem_nil
  | cons hf _ ih =>
    obtain ⟨-, file, -, hcontent⟩ := hf
    refine List.forall_mem_cons.mpr ⟨?_, ih⟩
    rw [hcontent, Format.parse_marshalCanonical]
    rfl

theorem forall₂_copied_same_iff (h : List.Forall₂ (Copied floats projectID name) flows copies) :
    List.Forall₂ (Copied floats projectID fun x => x) flows copies ↔
      ∀ x ∈ connectionFields floats flows, name x = x := by
  induction h with
  | nil => simp [connectionFields]
  | @cons f copy flows copies hf _ ih =>
    obtain ⟨hproject, hname, file, hfile, hcontent⟩ := hf
    have hhead : Copied floats projectID (fun x => x) f copy ↔
        ∀ x ∈ file.connections, name x = x := by
      rw [← Format.FlowFile.marshalCanonical_renamed_eq_iff, ← hcontent]
      constructor
      · rintro ⟨-, -, file', hfile', hcontent'⟩
        obtain rfl := Option.mem_unique hfile hfile'
        rw [hcontent', Format.FlowFile.renamed_id]
      · intro hsame
        exact ⟨hproject, hname, file, hfile, by rw [hsame, Format.FlowFile.renamed_id]⟩
    rw [List.forall₂_cons, hhead, ih, connectionFields_cons hfile, List.forall_mem_append]

variable {connections existing : List ConnectionRow} {now projectName : String}
  {bundle : FlowExportBundle} {u : ImportTables} {draws : List (Option Draw)}

structure RoundTrip (floats : Float64Text) (connections existing : List ConnectionRow)
    (projectID : String) (flows : List FlowRow) (refs : ExportRefs) (s : Importing) : Prop where
  numbered : Numbered (fun id => connections.find? (·.id = id)) refs
  empty : s.remap "" = ""
  stands : ∀ x ∈ connectionFields floats flows, x ≠ "" →
    ∀ conn, connections.find? (·.id = x) = some conn →
      ∃ ref c, refs.refByConnectionID.lookup x = some ref ∧ s.idByRef.lookup ref = some c.id ∧
        StandsFor existing projectID s.tables (conn.exported ref) c

variable {refs : ExportRefs} {s : Importing} {x : String}

theorem roundTrip (hnumbered : Numbered (fun id => connections.find? (·.id = id)) refs)
    (hcollected : Collected (fun id => connections.find? (·.id = id))
      (connectionFields floats flows) refs) (hremapped : Remapped projectID u refs.connections s)
    (hassigned : Assigned existing projectID refs.connections s) :
    RoundTrip floats connections existing projectID flows refs s where
  numbered := hnumbered
  empty := by
    have hnot : "" ∉ s.idByRef := by
      rw [hremapped.refs, hnumbered.numbers]
      intro hmem
      obtain ⟨i, -, hi⟩ := List.mem_map.mp hmem
      exact absurd (congrArg String.length hi) (by simp [refNumber])
    rw [Importing.remap, AList.lookup_eq_none.mpr hnot]
    rfl
  stands := by
    intro x hx hne conn hconn
    have hfound : (connections.find? (·.id = x)).isSome := hconn ▸ rfl
    have hmem : x ∈ refs.refByConnectionID := (hcollected.mem x).mpr ⟨hx, hne, hfound⟩
    obtain ⟨ref, href⟩ := Option.isSome_iff_exists.mp (AList.lookup_isSome.mpr hmem)
    obtain ⟨-, conn', hconn', hexported⟩ := hnumbered.found x ref href
    obtain rfl := Option.mem_unique hconn hconn'
    obtain ⟨c, hlookup, hstands⟩ := hassigned hnumbered.refs_nodup _ hexported
    exact ⟨ref, c, href, hlookup, hstands⟩

theorem export_import
    (hexport : buildExportBundle floats connections now projectName flows = .ok bundle)
    (hunique : (u.connections.map ConnectionRow.id).Nodup) (hlisting : Listed u projectID existing)
    (hdraws : FreshDraws u draws (bundle.connections.length + bundle.flows.length)) :
    ∃ refs s result u',
      importBundle floats projectID (some existing) draws bundle u = (.ok result, u') ∧
      bundle.connections.foldlM (importConnection existing projectID) { tables := u, draws } =
        .ok s ∧
      u'.connections = s.tables.connections ∧
      RoundTrip floats connections existing projectID flows refs s ∧
      List.Forall₂ (Copied floats projectID (s.remap ∘ refs.rename)) flows result.flows := by
  rw [buildExportBundle] at hexport
  split at hexport
  · contradiction
  next refs exported hflows =>
    cases hexport
    obtain ⟨hnumbered, -, hexported⟩ := numbered_nil.exportFlows hflows
    have hcollected := collected_nil.exportFlows hflows
    obtain ⟨s, hs, hrest⟩ := importConnections_ok existing projectID hdraws
    obtain ⟨s', hs'⟩ := importFlows_ok projectID hrest (parses_of_exported hexported)
    have hremapped : Remapped projectID u refs.connections s :=
      foldlM_invariant (fun hinv h => hinv.step hlisting h) (remapped_start hunique) hs
    have hassigned : Assigned existing projectID refs.connections s :=
      foldlM_invariant (fun hinv h => Assigned.step hinv h)
        (fun _ _ hec => absurd hec List.not_mem_nil) hs
    obtain ⟨created, hcreated, htables, hresult⟩ := importFlows_eq_ok hs'
    rw [hremapped.result] at hresult
    have himport : importBundle floats projectID (some existing) draws
        ⟨exportFormatVersion, now, projectName, exported, refs.connections⟩ u =
          (.ok s'.result, s'.tables) := by
      dsimp only [importBundle]
      rw [hs]
      dsimp only
      rw [hs']
    exact ⟨refs, s, s'.result, s'.tables, himport, hs, by rw [htables],
      roundTrip hnumbered hcollected hremapped hassigned,
      hresult ▸ forall₂_copied hexported hcreated⟩

theorem remap_rename {ref id : String} (href : refs.refByConnectionID.lookup x = some ref)
    (hid : s.idByRef.lookup ref = some id) : (s.remap ∘ refs.rename) x = id := by
  rw [Function.comp_apply, ExportRefs.rename, href, Option.getD_some, Importing.remap, hid,
    Option.getD_some]

theorem RoundTrip.rename_empty (h : RoundTrip floats connections existing projectID flows refs s) :
    (s.remap ∘ refs.rename) "" = "" := by
  rw [Function.comp_apply, h.numbered.rename_eq_empty (.inl rfl), h.empty]

theorem RoundTrip.rename_eq (h : RoundTrip floats t.connections existing projectID flows refs s)
    (hlisting : Listed t projectID existing) (hx : x ∈ connectionFields floats flows) (hne : x ≠ "")
    (hfind : t.connections.find? (·.id = x) = some c) (hproject : c.projectID = projectID) :
    ∃ d, (s.remap ∘ refs.rename) x = d.id ∧ byNameType existing c.name c.typeName = some d := by
  obtain ⟨ref, d, href, hid, hstands⟩ := h.stands x hx hne c hfind
  refine ⟨d, remap_rename href hid, ?_⟩
  rcases hstands with hlisted | ⟨hnone, -⟩
  · exact hlisted
  · exact absurd hnone
      (byNameType_isSome (hlisting.mem.mpr ⟨List.mem_of_find?_eq_some hfind, hproject⟩))

theorem RoundTrip.same_iff (h : RoundTrip floats t.connections existing projectID flows refs s)
    (hunique : (t.connections.map ConnectionRow.id).Nodup)
    (hown : ∀ x ∈ connectionFields floats flows, OwnConnection t.connections projectID x)
    (hlisting : Listed t projectID existing) :
    (∀ x ∈ connectionFields floats flows, (s.remap ∘ refs.rename) x = x) ↔
      ∀ x ∈ connectionFields floats flows, x ≠ "" →
        ∀ c, t.connections.find? (·.id = x) = some c →
          byNameType existing c.name c.typeName = some c := by
  constructor
  · intro hsame x hx hne c hfind
    obtain ⟨row, hrow, hproject⟩ := (hown x hx).resolve_left hne
    obtain rfl := Option.mem_unique hrow hfind
    obtain ⟨d, hd, hlisted⟩ := h.rename_eq hlisting hx hne hfind hproject
    obtain ⟨hmem, hid⟩ := (find?_key_eq_some hunique).mp hfind
    have hdmem := (hlisting.mem.mp (mem_of_byNameType hlisted).1).1
    have hids : d.id = row.id := by rw [← hd, hsame x hx, hid]
    rw [hlisted, List.inj_on_of_nodup_map hunique hdmem hmem hids]
  · intro hlast x hx
    by_cases hne : x = ""
    · rw [hne]
      exact h.rename_empty
    · obtain ⟨c, hfind, hproject⟩ := (hown x hx).resolve_left hne
      obtain ⟨d, hd, hlisted⟩ := h.rename_eq hlisting hx hne hfind hproject
      obtain rfl := Option.some.inj (hlisted.symm.trans (hlast x hx hne c hfind))
      rw [hd]
      exact ((find?_key_eq_some hunique).mp hfind).2

variable {seen : List ExportedConnection}

theorem RoundTrip.copy (h : RoundTrip floats connections [] projectID flows refs s)
    (hremapped : Remapped projectID u seen s) (hx : x ∈ connectionFields floats flows)
    (hne : x ≠ "") (hfind : connections.find? (·.id = x) = some c) :
    ∃ copy, s.tables.connections.find? (·.id = (s.remap ∘ refs.rename) x) = some copy ∧
      copy.projectID = projectID ∧ copy.name = c.name ∧ copy.typeName = c.typeName ∧
      copy.config = c.config := by
  obtain ⟨ref, d, href, hid, hstands⟩ := h.stands x hx hne c hfind
  rcases hstands with hlisted | ⟨-, hmem, hproject, hname, htype, hconfig⟩
  · nomatch hlisted
  · refine ⟨d, ?_, hproject, hname, htype, hconfig⟩
    rw [remap_rename href hid]
    exact (find?_key_eq_some hremapped.unique).mpr ⟨hmem, rfl⟩

theorem RoundTrip.rename_injective (h : RoundTrip floats connections [] projectID flows refs s)
    (hrenewed : Renewed projectID u seen s)
    (hfound : ∀ x ∈ connectionFields floats flows, x ≠ "" →
      ∃ c, connections.find? (·.id = x) = some c) {y : String}
    (hx : x ∈ connectionFields floats flows) (hy : y ∈ connectionFields floats flows)
    (heq : (s.remap ∘ refs.rename) x = (s.remap ∘ refs.rename) y) : x = y := by
  have hnamed : ∀ z ∈ connectionFields floats flows, z ≠ "" →
      ∃ ref id, refs.refByConnectionID.lookup z = some ref ∧ s.idByRef.lookup ref = some id := by
    intro z hz hne
    obtain ⟨c, hfind⟩ := hfound z hz hne
    obtain ⟨ref, d, href, hid, -⟩ := h.stands z hz hne c hfind
    exact ⟨ref, d.id, href, hid⟩
  by_cases hxe : x = "" <;> by_cases hye : y = ""
  · rw [hxe, hye]
  · obtain ⟨ref, id, href, hid⟩ := hnamed y hy hye
    rw [hxe, h.rename_empty, remap_rename href hid] at heq
    exact absurd heq.symm (hrenewed.nonempty ref id hid)
  · obtain ⟨ref, id, href, hid⟩ := hnamed x hx hxe
    rw [hye, h.rename_empty, remap_rename href hid] at heq
    exact absurd heq (hrenewed.nonempty ref id hid)
  · obtain ⟨ref, id, href, hid⟩ := hnamed x hx hxe
    obtain ⟨ref', id', href', hid'⟩ := hnamed y hy hye
    rw [remap_rename href hid, remap_rename href' hid'] at heq
    obtain rfl := hrenewed.inj ref ref' id hid (heq ▸ hid')
    exact h.numbered.inj x y ref href href'

end Compose

/--
Imported back into the project, the flows are in canonical form and name, for every connection in
use, the one of its name and type that the listing gives; that is the connection they had exactly
when it is this one.  Imported into a project without connections, they are copies up to an
injective renaming, and each new connection has the name, type and config of the original.
-/
theorem export_import_faithful {floats : Float64Text} {projectID now projectName : String}
    {t : ImportTables} {flows : List FlowRow} {bundle : FlowExportBundle}
    {existing : List ConnectionRow} {draws : List (Option Draw)}
    (hunique : (t.connections.map ConnectionRow.id).Nodup)
    (hown : ∀ x ∈ connectionFields floats flows, OwnConnection t.connections projectID x)
    (hexport : buildExportBundle floats t.connections now projectName flows = .ok bundle)
    (hlisting : Listed t projectID existing)
    (hdraws : FreshDraws t draws (bundle.connections.length + bundle.flows.length))
    {u : ImportTables} {targetID : String} {listed : List ConnectionRow}
    {draws' : List (Option Draw)} (hunique' : (u.connections.map ConnectionRow.id).Nodup)
    (hempty : ∀ c ∈ u.connections, c.projectID ≠ targetID) (hlisting' : Listed u targetID listed)
    (hdraws' : FreshDraws u draws' (bundle.connections.length + bundle.flows.length)) :
    (∃ result t' name,
      importBundle floats projectID (some existing) draws bundle t = (.ok result, t') ∧
      List.Forall₂ (Copied floats projectID name) flows result.flows ∧
      name "" = "" ∧
      (∀ x ∈ connectionFields floats flows, x ≠ "" →
        ∀ c, t.connections.find? (·.id = x) = some c →
          ∃ d, name x = d.id ∧ byNameType existing c.name c.typeName = some d) ∧
      (List.Forall₂ (Copied floats projectID fun x => x) flows result.flows ↔
        ∀ x ∈ connectionFields floats flows, x ≠ "" →
          ∀ c, t.connections.find? (·.id = x) = some c →
            byNameType existing c.name c.typeName = some c)) ∧
    ∃ result u' name,
      importBundle floats targetID (some listed) draws' bundle u = (.ok result, u') ∧
      List.Forall₂ (Copied floats targetID name) flows result.flows ∧
      name "" = "" ∧
      (∀ x ∈ connectionFields floats flows, ∀ y ∈ connectionFields floats flows,
        name x = name y → x = y) ∧
      ∀ x ∈ connectionFields floats flows, x ≠ "" →
        ∀ c, t.connections.find? (·.id = x) = some c →
          ∃ copy, u'.connections.find? (·.id = name x) = some copy ∧ copy.projectID = targetID ∧
            copy.name = c.name ∧ copy.typeName = c.typeName ∧ copy.config = c.config := by
  constructor
  · obtain ⟨refs, s, result, t', himport, -, -, htrip, hcopied⟩ :=
      export_import hexport hunique hlisting hdraws
    refine ⟨result, t', s.remap ∘ refs.rename, himport, hcopied, htrip.rename_empty, ?_,
      (forall₂_copied_same_iff hcopied).trans (htrip.same_iff hunique hown hlisting)⟩
    intro x hx hne c hfind
    obtain ⟨row, hrow, hproject⟩ := (hown x hx).resolve_left hne
    obtain rfl := Option.mem_unique hrow hfind
    exact htrip.rename_eq hlisting hx hne hfind hproject
  · obtain rfl : listed = [] :=
      List.eq_nil_iff_forall_not_mem.mpr fun c hc =>
        hempty c (hlisting'.mem.mp hc).1 (hlisting'.mem.mp hc).2
    obtain ⟨refs, s, result, u', himport, hloop, hconnections, htrip, hcopied⟩ :=
      export_import hexport hunique' hlisting' hdraws'
    have hrenewed : Renewed targetID u bundle.connections s :=
      foldlM_invariant (fun hinv h => hinv.step hlisting' h) (hdraws'.renewed hunique') hloop
    have hfound : ∀ x ∈ connectionFields floats flows, x ≠ "" →
        ∃ c, t.connections.find? (·.id = x) = some c := by
      intro x hx hne
      obtain ⟨c, hfind, -⟩ := (hown x hx).resolve_left hne
      exact ⟨c, hfind⟩
    refine ⟨result, u', s.remap ∘ refs.rename, himport, hcopied, htrip.rename_empty, ?_, ?_⟩
    · exact fun x hx y hy heq => htrip.rename_injective hrenewed hfound hx hy heq
    · intro x hx hne c hfind
      rw [hconnections]
      exact htrip.copy hrenewed.remapped hx hne hfind

theorem byNameType_of_unique {existing : List ConnectionRow} (hmem : c ∈ existing)
    (hkind : ∀ d ∈ existing, d.name = c.name → d.typeName = c.typeName → d = c) :
    byNameType existing c.name c.typeName = some c := by
  obtain ⟨d, hd⟩ := Option.ne_none_iff_exists'.mp (byNameType_isSome hmem)
  obtain ⟨hdmem, hname, htype⟩ := mem_of_byNameType hd
  rw [hd, hkind d hdmem hname htype]

/-! ## One name, one type -/

def twoDraws : List (Option Draw) := [some ⟨"a", "now"⟩, some ⟨"b", "now"⟩]

theorem exported_bundle (connections : List ConnectionRow)
    (hcheck : (buildExportBundle Format.exactFloats connections "now" ""
      [exportedFlow]).toOption.map
        (fun bundle => bundle.connections.length + bundle.flows.length) = some 2) :
    ∃ bundle, buildExportBundle Format.exactFloats connections "now" "" [exportedFlow] =
        .ok bundle ∧ bundle.connections.length + bundle.flows.length = 2 := by
  cases hbundle : buildExportBundle Format.exactFloats connections "now" "" [exportedFlow] with
  | error name =>
    rw [hbundle] at hcheck
    contradiction
  | ok bundle =>
    rw [hbundle] at hcheck
    exact ⟨bundle, rfl, Option.some.inj hcheck⟩

theorem freshDraws_two (ha : "a" ∉ t.ids) (hb : "b" ∉ t.ids) : FreshDraws t twoDraws 2 where
  enough := Nat.le_refl 2
  unused := by simp [twoDraws, ha, hb]
  distinct := by decide

/-- A flow of `p` with its connection, imported back and into a project of an empty database. -/
theorem own_connection_kept :
    ∃ bundle result t' copied u' name,
      buildExportBundle Format.exactFloats [connectionOf "p" "n"] "now" "" [exportedFlow] =
        .ok bundle ∧
      importBundle Format.exactFloats "p" (some [connectionOf "p" "n"]) twoDraws bundle
        { connections := [connectionOf "p" "n"] } = (.ok result, t') ∧
      List.Forall₂ (Copied Format.exactFloats "p" fun x => x) [exportedFlow] result.flows ∧
      importBundle Format.exactFloats "q" (some []) twoDraws bundle {} = (.ok copied, u') ∧
      List.Forall₂ (Copied Format.exactFloats "q" name) [exportedFlow] copied.flows := by
  obtain ⟨bundle, hbundle, hlength⟩ := exported_bundle [connectionOf "p" "n"] (by decide +kernel)
  have hown : ∀ x ∈ connectionFields Format.exactFloats [exportedFlow],
      OwnConnection [connectionOf "p" "n"] "p" x := by
    rw [fields_exportedFlow]
    exact List.forall_mem_singleton.mpr (.inr ⟨_, rfl, rfl⟩)
  have hlisting : Listed { connections := [connectionOf "p" "n"] } "p" [connectionOf "p" "n"] :=
    .refl _
  have hlisting' : Listed {} "q" [] := .refl _
  obtain ⟨⟨result, t', -, himport, -, -, -, hsame⟩, copied, u', name, himport', hcopied, -⟩ :=
    export_import_faithful (t := { connections := [connectionOf "p" "n"] }) (u := {})
      (by decide) hown hbundle hlisting (hlength ▸ freshDraws_two (by decide) (by decide))
      List.nodup_nil (fun _ h => nomatch h) hlisting'
      (hlength ▸ freshDraws_two (by decide) (by decide))
  have hkept : List.Forall₂ (Copied Format.exactFloats "p" fun x => x) [exportedFlow]
      result.flows := by
    refine hsame.mpr fun x _ _ c hc => ?_
    have hmem := List.mem_of_find?_eq_some hc
    refine byNameType_of_unique hmem fun d hd _ _ => ?_
    rw [List.mem_singleton.mp hd, List.mem_singleton.mp hmem]
  exact ⟨bundle, result, t', copied, u', name, hbundle, himport, hkept, himport', hcopied⟩

def sameKind : List ConnectionRow :=
  [connectionOf "p" "n", { connectionOf "p" "n" with id := "y" }]

/-- The listing ends with `y`, so the flow that named `x` comes back naming `y`. -/
theorem other_connection_named :
    ∃ bundle result t' name,
      buildExportBundle Format.exactFloats sameKind "now" "" [exportedFlow] = .ok bundle ∧
      importBundle Format.exactFloats "p" (some sameKind) twoDraws bundle
        { connections := sameKind } = (.ok result, t') ∧
      List.Forall₂ (Copied Format.exactFloats "p" name) [exportedFlow] result.flows ∧
      name "x" = "y" ∧
      ¬ List.Forall₂ (Copied Format.exactFloats "p" fun x => x) [exportedFlow] result.flows := by
  obtain ⟨bundle, hbundle, hlength⟩ := exported_bundle sameKind (by decide +kernel)
  have hlisting : Listed { connections := sameKind } "p" sameKind := .refl _
  have hunique : (sameKind.map ConnectionRow.id).Nodup := by decide
  have hdraws : FreshDraws { connections := sameKind } twoDraws 2 :=
    freshDraws_two (by decide) (by decide)
  obtain ⟨refs, s, result, t', himport, -, -, htrip, hcopied⟩ :=
    export_import hbundle hunique hlisting (hlength ▸ hdraws)
  have hx : "x" ∈ connectionFields Format.exactFloats [exportedFlow] := by
    rw [fields_exportedFlow]
    exact List.mem_cons_self
  have hfind : sameKind.find? (·.id = "x") = some (connectionOf "p" "n") := rfl
  obtain ⟨d, hd, hlisted⟩ := htrip.rename_eq hlisting hx (by decide) hfind rfl
  obtain rfl := Option.some.inj hlisted
  refine ⟨bundle, result, t', s.remap ∘ refs.rename, hbundle, himport, hcopied, hd, fun hsame => ?_⟩
  have hself := (forall₂_copied_same_iff hcopied).mp hsame "x" hx
  rw [hd] at hself
  exact absurd hself (by decide)

end DataPipe.ControlPlane
