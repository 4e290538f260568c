import DataPipe.ControlPlane.Requests
import DataPipe.Foundation.Keyed

/-!
# Profiles of the own project

What a `deployFlow` request reads of the environment profiles.  The request is run alone, step
by step, on two databases that agree on the project of the flow; the errors of
`resolveEnvForDeploy` are kept with what they are about.  The active profile is looked up by
its id alone, so the runs differ exactly where the flow or the request names a profile that is
not of the project.
-/

namespace DataPipe.ControlPlane

open DataPipe.Foundation DataPipe.Flow

/-- The errors of `resolveEnvForDeploy`. -/
inductive EnvError where
  | loading
  /-- The error of `json.Unmarshal` on the values of the profile. -/
  | decoding (valuesJSON : List Char)
  | missing (names : List String)

structure Served (floats : Float64Text) where
  errors : List EnvError
  shared : Shared
  request : Request floats

def Tables.withProfiles (t : Tables) (profiles : List ProfileRow) : Tables := { t with profiles }

def Shared.withProfiles (s : Shared) (profiles : List ProfileRow) : Shared :=
  { s with tables := s.tables.withProfiles profiles }

namespace Handlers

variable {floats : Float64Text} (h : Handlers floats)

def resolved (file : Format.FlowFile floats) (profile : Option EnvironmentProfile) :
    Except EnvError (KeyMap String) :=
  let resolved := ControlPlane.resolveEnv h.sprint file profile
  if resolved.2.isEmpty then .ok resolved.1 else .error (.missing resolved.2)

/-- `resolveEnvForDeploy` with its errors. -/
def resolvedEnv (ok : Bool) (t : Tables) (f : FlowRow) (file : Format.FlowFile floats) :
    Except EnvError (KeyMap String) :=
  if ok then
    match (f.activeProfileID.filter (· ≠ "")).bind t.profile with
    | none => h.resolved file none
    | some row =>
      match row.scan with
      | none => .error (.decoding row.valuesJSON)
      | some profile => h.resolved file (some profile)
  else .error .loading

def envError (ok : Bool) (s : Shared) : Request floats → Option EnvError
  | .resolveEnv job =>
    match h.resolvedEnv ok s.tables job.flow job.file with
    | .ok _ => none
    | .error e => some e
  | _ => none

def serve : List (String × Bool) → Shared → Request floats → Served floats
  | [], s, request => ⟨[], s, request⟩
  | (now, ok) :: answers, s, request =>
    match h.advance now ok s request with
    | none => ⟨[], s, request⟩
    | some (s', next) =>
      let rest := serve answers s' next
      { rest with errors := (h.envError ok s request).toList ++ rest.errors }

end Handlers

/-- What is seen from outside: the errors, the calls of `DeployFlow` and the request itself. -/
def Served.observed {floats : Float64Text} (served : Served floats) :
    List EnvError × List DeployFlowCall × Request floats :=
  (served.errors, served.shared.calls, served.request)

def Tables.OwnProfile (t : Tables) (projectID profileID : String) : Prop :=
  ∃ row, t.profile profileID = some row ∧ row.projectID = projectID

section Scope

variable {floats : Float64Text} {h : Handlers floats} {s : Shared} (answers : List (String × Bool))

theorem toOption_resolvedEnv (t : Tables) (f : FlowRow) (file : Format.FlowFile floats) :
    h.resolveEnvForDeploy t f file = (h.resolvedEnv true t f file).toOption := by
  have hresolved : ∀ profile, (let resolved := ControlPlane.resolveEnv h.sprint file profile
      if resolved.2.isEmpty then some resolved.1 else none) =
        (h.resolved file profile).toOption := by
    intro profile
    simp only [Handlers.resolved]
    split <;> rfl
  rw [Handlers.resolveEnvForDeploy, Handlers.resolvedEnv, Handlers.activeProfile]
  cases f.activeProfileID with
  | none => exact hresolved none
  | some profileID =>
    by_cases hempty : profileID = ""
    · simp only [hempty, if_true, Option.filter, ne_eq, not_true_eq_false, decide_false]
      exact hresolved none
    · simp only [Option.filter, ne_eq, hempty, not_false_eq_true, decide_true, if_true,
        Option.bind_some]
      cases t.profile profileID with
      | none => exact hresolved none
      | some row =>
        simp only
        cases row.scan with
        | none => rfl
        | some profile => exact hresolved (some profile)

def Request.UsesOwn (h : Handlers floats) (projectID : String) (t : Tables) :
    Request floats → Prop
  | .deployFlow id _ _ profileID =>
    ∀ f file, h.getFlow true t id = .ok f → h.check f.draftContent = some file →
      ∀ active, profileID.or f.activeProfileID = some active → active ≠ "" →
        t.OwnProfile projectID active
  | .selectProfile _ profileID => profileID ≠ "" → t.OwnProfile projectID profileID
  | .resolveEnv job =>
    ∀ active, job.flow.activeProfileID = some active → active ≠ "" → t.OwnProfile projectID active
  | .readDraft .. | .commit .. | .readProject .. | .push .. | .deployed .. | .failed _ => True
  | _ => False

variable {projectID : String} {profiles : List ProfileRow} {t : Tables} {ok : Bool} {f : FlowRow}

theorem resolvedEnv_withProfiles {file : Format.FlowFile floats}
    (hagree : AgreeOn ProfileRow.id ProfileRow.projectID projectID t.profiles profiles)
    (hown : ∀ active, f.activeProfileID = some active → active ≠ "" →
      t.OwnProfile projectID active) :
    h.resolvedEnv ok (t.withProfiles profiles) f file = h.resolvedEnv ok t f file := by
  have hprofile : (f.activeProfileID.filter (· ≠ "")).bind (t.withProfiles profiles).profile =
      (f.activeProfileID.filter (· ≠ "")).bind t.profile := by
    cases hactive : f.activeProfileID.filter (· ≠ "") with
    | none => rfl
    | some active =>
      obtain ⟨hactive, hne⟩ := Option.filter_eq_some_iff.mp hactive
      obtain ⟨row, hrow, hproject⟩ := hown active hactive (of_decide_eq_true hne)
      exact (hagree.find?_eq hrow hproject).trans hrow.symm
  rw [Handlers.resolvedEnv, hprofile, ← Handlers.resolvedEnv]

theorem commitVersion_withProfiles (t : Tables) (profiles : List ProfileRow) (row : VersionRow)
    (now : String) :
    (t.withProfiles profiles).commitVersion row now =
      (t.commitVersion row now).map (·.withProfiles profiles) := by
  simp only [Tables.commitVersion, Tables.insertVersion]
  change Option.map _ (if (t.version row.flowID row.version).isSome then none else _) = _
  split <;> rfl

variable {request : Request floats} {now : String}

theorem advance_withProfiles
    (hagree : AgreeOn ProfileRow.id ProfileRow.projectID projectID s.tables.profiles profiles)
    (hown : request.UsesOwn h projectID s.tables) :
    h.advance now ok (s.withProfiles profiles) request =
      (h.advance now ok s request).map (Prod.map (Shared.withProfiles · profiles) id) := by
  cases request with
  | deployFlow id author comment profileID =>
    have hget : h.getFlow ok (s.withProfiles profiles).tables id = h.getFlow ok s.tables id := rfl
    simp only [Handlers.advance, hget]
    split
    · rfl
    · split
      · rfl
      · split <;> rfl
  | selectProfile job profileID =>
    simp only [Handlers.advance]
    split <;> rfl
  | resolveEnv job =>
    have hsame : ∀ t, (if ok = true then h.resolveEnvForDeploy t job.flow job.file else none) =
        (h.resolvedEnv ok t job.flow job.file).toOption := by
      intro t
      cases ok with
      | false => rfl
      | true => exact toOption_resolvedEnv t job.flow job.file
    simp only [Handlers.advance, hsame, Shared.withProfiles, resolvedEnv_withProfiles hagree hown]
    split <;> rfl
  | readDraft job env =>
    have hget : h.getFlow ok (s.withProfiles profiles).tables job.flow.id =
      h.getFlow ok s.tables job.flow.id := rfl
    simp only [Handlers.advance, hget]
    split <;> rfl
  | commit job env draft alone =>
    cases ok with
    | false => rfl
    | true =>
      have hnext : (s.withProfiles profiles).tables.nextVersion job.flow.id draft.draftContent
        job.author job.comment now = s.tables.nextVersion job.flow.id draft.draftContent
          job.author job.comment now := rfl
      simp only [Handlers.advance, if_true, hnext]
      rw [Shared.withProfiles, commitVersion_withProfiles]
      cases s.tables.commitVersion (s.tables.nextVersion job.flow.id draft.draftContent
        job.author job.comment now) now <;> rfl
  | readProject job env stored alone =>
    have hproject : (s.withProfiles profiles).tables.project job.flow.projectID =
      s.tables.project job.flow.projectID := rfl
    simp only [Handlers.advance, hproject]
    split <;> rfl
  | push | deployed | failed => rfl
  | _ => exact hown.elim

def Tables.ActiveIsOwn (t : Tables) (id projectID : String) : Prop :=
  ∀ f active, t.flow id = some f → f.activeProfileID = some active → t.OwnProfile projectID active

theorem ownProfile_congr {t' : Tables} (hprofiles : t'.profiles = t.profiles) {profileID : String}
    (hown : t.OwnProfile projectID profileID) : t'.OwnProfile projectID profileID := by
  obtain ⟨row, hrow, hproject⟩ := hown
  refine ⟨row, ?_, hproject⟩
  rw [Tables.profile, hprofiles]
  exact hrow

variable {id : String}

theorem activeIsOwn_updateFlow {other : String} {change : FlowRow → FlowRow}
    (hid : ∀ row, (change row).id = row.id)
    (hchange : ∀ row active, (change row).activeProfileID = some active →
      row.activeProfileID = some active ∨ t.OwnProfile projectID active)
    (hactive : t.ActiveIsOwn id projectID) :
    (t.updateFlow other change).ActiveIsOwn id projectID := by
  intro f active hf hset
  refine ownProfile_congr rfl ?_
  rw [Tables.flow_updateFlow hid] at hf
  obtain ⟨row, hrow, rfl⟩ := Option.map_eq_some_iff.mp hf
  split at hset
  · rcases hchange row active hset with hsame | hown
    · exact hactive row active hrow hsame
    · exact hown
  · exact hactive row active hrow hset

theorem getFlow_eq_ok_true (hget : h.getFlow ok t id = .ok f) : h.getFlow true t id = .ok f := by
  cases ok with
  | false => cases hget
  | true => exact hget

theorem usesOwn_advance {s' : Shared} {next : Request floats}
    (hown : request.UsesOwn h projectID s.tables) (hactive : s.tables.ActiveIsOwn id projectID)
    (hstep : h.advance now ok s request = some (s', next)) :
    s'.tables.profiles = s.tables.profiles ∧ next.UsesOwn h projectID s'.tables ∧
      s'.tables.ActiveIsOwn id projectID := by
  revert hstep
  fun_cases h.advance now ok s request <;> rintro ⟨⟩
  all_goals first | exact hown.elim | exact ⟨rfl, trivial, hactive⟩ | skip
  next hget file hfile _ => exact ⟨rfl, hown _ file (getFlow_eq_ok_true hget) hfile, hactive⟩
  next hget file hfile _ profileID =>
    exact ⟨rfl, hown _ file (getFlow_eq_ok_true hget) hfile profileID rfl, hactive⟩
  next =>
    refine ⟨rfl, ?_, ?_⟩
    · rintro active ⟨rfl⟩ hne
      exact ownProfile_congr rfl (hown hne)
    · refine activeIsOwn_updateFlow (fun _ => rfl) (fun row active hset => ?_) hactive
      simp only [FlowStore.nullableString] at hset
      split at hset
      · contradiction
      next hne =>
        obtain rfl := Option.some.inj hset
        exact .inr (hown hne)
  next hcommit =>
    obtain ⟨-, hcommit⟩ := Option.ite_none_right_eq_some.mp hcommit
    obtain ⟨-, rfl⟩ := Tables.commitVersion_eq_some.mp hcommit
    exact ⟨rfl, trivial, activeIsOwn_updateFlow (fun _ => rfl) (fun _ _ hset => .inl hset) hactive⟩

theorem serve_withProfiles
    (hagree : AgreeOn ProfileRow.id ProfileRow.projectID projectID s.tables.profiles profiles)
    (hown : request.UsesOwn h projectID s.tables) (hactive : s.tables.ActiveIsOwn id projectID) :
    (h.serve answers (s.withProfiles profiles) request).observed =
      (h.serve answers s request).observed := by
  induction answers generalizing s request with
  | nil => rfl
  | cons answer answers ih =>
    obtain ⟨now, ok⟩ := answer
    have herror : h.envError ok (s.withProfiles profiles) request = h.envError ok s request := by
      cases request with
      | resolveEnv job =>
        simp only [Handlers.envError, Shared.withProfiles, resolvedEnv_withProfiles hagree hown]
      | _ => rfl
    simp only [Handlers.serve, advance_withProfiles hagree hown, herror]
    cases hstep : h.advance now ok s request with
    | none => rfl
    | some result =>
      obtain ⟨hprofiles, hnext, hactive'⟩ := usesOwn_advance hown hactive hstep
      rw [← hprofiles] at hagree
      have hrest := ih hagree hnext hactive'
      simp only [Served.observed, Prod.mk.injEq] at hrest
      simp only [Option.map_some, Prod.map, id_eq, Served.observed, Prod.mk.injEq]
      exact ⟨congrArg _ hrest.1, hrest.2⟩

theorem activeIsOwn_serve (hown : request.UsesOwn h projectID s.tables)
    (hactive : s.tables.ActiveIsOwn id projectID) :
    (h.serve answers s request).shared.tables.profiles = s.tables.profiles ∧
      (h.serve answers s request).shared.tables.ActiveIsOwn id projectID := by
  induction answers generalizing s request with
  | nil => exact ⟨rfl, hactive⟩
  | cons answer answers ih =>
    obtain ⟨now, ok⟩ := answer
    simp only [Handlers.serve]
    cases hstep : h.advance now ok s request with
    | none => exact ⟨rfl, hactive⟩
    | some result =>
      obtain ⟨hprofiles, hnext, hactive'⟩ := usesOwn_advance hown hactive hstep
      obtain ⟨hsame, hafter⟩ := ih hnext hactive'
      exact ⟨hsame.trans hprofiles, hafter⟩

/--
The condition: the stored active profile is null or of the project of the flow, and so is a
profile that the request names for a draft that parses and validates.
-/
structure NamesOwnProfiles (h : Handlers floats) (t : Tables) (id projectID : String)
    (profileID : Option String) : Prop where
  stored : t.ActiveIsOwn id projectID
  requested : ∀ f file named, h.getFlow true t id = .ok f → h.check f.draftContent = some file →
    profileID = some named → named ≠ "" → t.OwnProfile projectID named

theorem NamesOwnProfiles.usesOwn {author comment : String} {profileID : Option String}
    (hnames : NamesOwnProfiles h t id projectID profileID) :
    (.deployFlow id author comment profileID : Request floats).UsesOwn h projectID t := by
  intro f file hget hfile active hactive hne
  cases profileID with
  | none => exact hnames.stored f active (Handlers.getFlow_eq_ok hget) hactive
  | some named =>
    obtain rfl := Option.some.inj hactive
    exact hnames.requested f file named hget hfile rfl hne

theorem flow_setActiveProfile {named : String} (hflow : t.flow id = some f) (hne : named ≠ "") :
    (t.setActiveProfile f.id (FlowStore.nullableString named)).flow id =
      some { f with activeProfileID := some named } := by
  have hset : ∀ row : FlowRow, { row with activeProfileID := some named }.id = row.id :=
    fun _ => rfl
  rw [FlowStore.nullableString, if_neg hne, Tables.setActiveProfile,
    Tables.flow_updateFlow_of_flow hset hflow, if_pos rfl]

/--
A `deployFlow` request resolves the same environment, or answers with the same error, on every
database that agrees on the project of the flow, and leaves an active profile that is null or of
that project, exactly when the stored profile and the requested one are.
-/
theorem deploy_uses_own_profiles_iff (h : Handlers floats) {s : Shared} {id : String} {f : FlowRow}
    (hflow : s.tables.flow id = some f) (author comment : String) (profileID : Option String) :
    ((∀ profiles,
        AgreeOn ProfileRow.id ProfileRow.projectID f.projectID s.tables.profiles profiles →
        ∀ answers,
          (h.serve answers (s.withProfiles profiles)
            (.deployFlow id author comment profileID)).observed =
          (h.serve answers s (.deployFlow id author comment profileID)).observed) ∧
      ∀ answers, (h.serve answers s
        (.deployFlow id author comment profileID)).shared.tables.ActiveIsOwn id f.projectID) ↔
    NamesOwnProfiles h s.tables id f.projectID profileID := by
  constructor
  · rintro ⟨-, hafter⟩
    refine ⟨hafter [], fun g file named hget hfile hnamed hne => ?_⟩
    subst hnamed
    obtain rfl : g = f := Option.some.inj ((Handlers.getFlow_eq_ok hget).symm.trans hflow)
    have hselected := hafter [("", true), ("", true)]
    simp only [Handlers.serve, Handlers.advance, hget, hfile, if_true] at hselected
    exact hselected _ named (flow_setActiveProfile hflow hne) rfl
  · intro hnames
    refine ⟨fun profiles hagree answers => ?_, fun answers => ?_⟩
    · exact serve_withProfiles answers hagree hnames.usesOwn hnames.stored
    · exact (activeIsOwn_serve answers hnames.usesOwn hnames.stored).2

end Scope

def envFlow : FlowRow where
  id := "f"
  projectID := "p"
  name := "flow"
  draftContent :=
    ("\x7b\"mode\":\"streaming\",\"env\":[\x7b\"name\":\"v\"\x7d]," ++
      "\"graph\":\x7b\"nodes\":[\x7b\"id\":\"a\",\"type\":\"inject\"\x7d]\x7d\x7d").toList
  createdAt := ""
  updatedAt := ""

/-- The profile `b`, which gives `v` a value of one digit. -/
def profileOf (projectID : String) (value : Char) : ProfileRow where
  id := "b"
  projectID
  name := "profile"
  valuesJSON := "\x7b\"v\":\"".toList ++ [value] ++ "\"\x7d".toList
  createdAt := ""

def envDatabase (profile : ProfileRow) : Shared where
  tables := { flows := [envFlow], projects := [{ id := "p" }], profiles := [profile] }

def deployWithProfile (profile : ProfileRow) : Served Format.exactFloats :=
  smallHandlers.serve (List.replicate 7 ("", true)) (envDatabase profile)
    (.deployFlow "f" "ann" "" (some "b"))

theorem own_profile_deployed :
    (∀ profiles, AgreeOn ProfileRow.id ProfileRow.projectID envFlow.projectID
        (envDatabase (profileOf "p" '1')).tables.profiles profiles →
      ∀ answers,
        (smallHandlers.serve answers ((envDatabase (profileOf "p" '1')).withProfiles profiles)
          (.deployFlow "f" "ann" "" (some "b"))).observed =
        (smallHandlers.serve answers (envDatabase (profileOf "p" '1'))
          (.deployFlow "f" "ann" "" (some "b"))).observed) ∧
    ∀ answers, (smallHandlers.serve answers (envDatabase (profileOf "p" '1'))
      (.deployFlow "f" "ann" "" (some "b"))).shared.tables.ActiveIsOwn "f" envFlow.projectID := by
  have hflow : (envDatabase (profileOf "p" '1')).tables.flow "f" = some envFlow := rfl
  have hnames : NamesOwnProfiles smallHandlers (envDatabase (profileOf "p" '1')).tables "f"
      envFlow.projectID (some "b") := by
    refine ⟨fun f active hf hactive => ?_, fun _ _ named _ _ hnamed _ => ?_⟩
    · have hnull : envFlow.activeProfileID = none := rfl
      rw [← Option.mem_unique hflow hf, hnull] at hactive
      cases hactive
    · rw [← Option.some.inj hnamed]
      exact ⟨profileOf "p" '1', rfl, rfl⟩
  exact (deploy_uses_own_profiles_iff smallHandlers hflow "ann" "" (some "b")).mpr hnames

/--
The profile belongs to the project `q`.  The two databases agree on `p`; the environment that
is pushed differs, and the profile stays the active one of the flow.
-/
theorem foreign_profile_deployed :
    AgreeOn ProfileRow.id ProfileRow.projectID "p" [profileOf "q" '1'] [profileOf "q" '2'] ∧
    (deployWithProfile (profileOf "q" '1')).shared.calls.map (·.resolvedEnv.entries) =
      [[("v", "1")]] ∧
    (deployWithProfile (profileOf "q" '2')).shared.calls.map (·.resolvedEnv.entries) =
      [[("v", "2")]] ∧
    (deployWithProfile (profileOf "q" '2')).observed ≠
      (deployWithProfile (profileOf "q" '1')).observed ∧
    ¬ (deployWithProfile (profileOf "q" '1')).shared.tables.ActiveIsOwn "f" "p" := by
  obtain ⟨h1, ⟨f, hf, hset⟩, hproject⟩ :
      (deployWithProfile (profileOf "q" '1')).shared.calls.map (·.resolvedEnv.entries) =
        [[("v", "1")]] ∧
      (∃ f, (deployWithProfile (profileOf "q" '1')).shared.tables.flow "f" = some f ∧
        f.activeProfileID = some "b") ∧
      ((deployWithProfile (profileOf "q" '1')).shared.tables.profile "b").map
        ProfileRow.projectID = some "q" := by
    decide +kernel
  have h2 : (deployWithProfile (profileOf "q" '2')).shared.calls.map (·.resolvedEnv.entries) =
      [[("v", "2")]] := by
    decide +kernel
  refine ⟨⟨by decide, by decide, by decide⟩, h1, h2, fun heq => ?_, fun hown => ?_⟩
  · have hcalls := (Prod.mk.inj (Prod.mk.inj heq).2).1
    rw [hcalls, h1] at h2
    exact absurd h2 (by decide)
  · obtain ⟨row, hrow, hp⟩ := hown f "b" hf hset
    rw [hrow, Option.map_some, hp] at hproject
    exact absurd hproject (by decide)

end DataPipe.ControlPlane
