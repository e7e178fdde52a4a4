import CocoaWay.Sessions.Plan
import CocoaWay.Sessions.RoundTrip

/-!
# A captured profile

* `ProfileActionTarget`, `capture`, `resolve` : the profile of an action, found again in a later configuration;
* `sessionToToml_eq_iff` : the texts of two profiles are equal exactly when the profiles are, up to empty texts;
* `EmptyCommand`, `EmptyContainerSocket`, `SameEmpties` : the empty texts a launch tells from absent ones;
* `launchPlan_eq_iff` : what is launched, for profiles with one text;
* `resolvesFaithfully_iff` : a resolved profile is launched as the captured one exactly when it has the same of these
  empty.
-/

namespace CocoaWay.Sessions

open Lib
open Control (ProfileId)
open Launch (trim)
open ProfileConfig (ContainerSession containerName)

/-! ## Targets -/

structure ProfileActionTarget where
  id : ProfileId
  signature : String

def ProfileActionTarget.capture (s : ContainerSession) : ProfileActionTarget := ⟨s.id, sessionToToml s⟩

def ProfileActionTarget.resolve (target : ProfileActionTarget) (sessions : List ContainerSession) :
    Option ContainerSession :=
  sessions.find? fun s => s.id = target.id && sessionToToml s = target.signature

/-! ## Texts of profiles -/

section Signature

variable {s t : ContainerSession}

theorem fields_of_text (h : sessionToToml s = sessionToToml t) : fields s = fields t := by
  have h := congrArg String.toList h
  rw [toList_sessionToToml, toList_sessionToToml] at h
  have hname : Toml.isBare "session".toList = true := by decide
  refine Toml.shownTable_inj (fun c => reads_tomlEscapeChar (.inr rfl)) hname ?_ (fields_nodup s) (fields_nodup t) h
  rw [List.forall_mem_append]
  exact ⟨fields_bare s, fields_bare t⟩

theorem slots_of_text (h : sessionToToml s = sessionToToml t) : slots s = slots t :=
  slots_of_entries (by rw [slots_keys, slots_keys]) (slots_nodup s) (fields_of_text h)

theorem sessionToToml_blanksAbsent (s : ContainerSession) : sessionToToml (blanksAbsent s) = sessionToToml s := by
  have hline : ∀ key value, optionalLine key (given value) = optionalLine key value := by
    intro key value
    unfold optionalLine given
    rw [Option.filter_filter]
    simp only [Bool.and_self]
  unfold sessionToToml blanksAbsent
  simp only [hline]

theorem id_of_text {id id' : ProfileId} (h : (if id.isSaved then some (textValue id.toString) else none) =
    if id'.isSaved then some (textValue id'.toString) else none) : id = id' := by
  have hunsaved : ∀ i : ProfileId, ¬ i.isSaved = true → i = .unsaved := by
    intro i hi
    unfold ProfileId.isSaved at hi
    rwa [decide_eq_true_eq, ne_eq, not_not] at hi
  by_cases hid : id.isSaved = true <;> by_cases hid' : id'.isSaved = true
  · rw [if_pos hid, if_pos hid'] at h
    have htext : id.toString = id'.toString := by simpa [textValue, String.toList_inj] using h
    have hread := Control.fromStr_toString hid
    rw [htext, Control.fromStr_toString hid'] at hread
    exact (Except.ok.inj hread).symm
  · rw [if_pos hid, if_neg hid'] at h
    cases h
  · rw [if_neg hid, if_pos hid'] at h
    cases h
  · rw [hunsaved id hid, hunsaved id' hid']

/-- Profiles have one text when they are equal up to empty texts, and only then. -/
theorem sessionToToml_eq_iff : sessionToToml s = sessionToToml t ↔ blanksAbsent s = blanksAbsent t := by
  constructor
  · intro h
    have hslots := slots_of_text h
    have htext : ∀ {value value' : String}, textValue value = textValue value' → value = value' := by
      intro value value' hv
      simpa [textValue, String.toList_inj] using hv
    have hgiven : ∀ {key} {value value' : Option String}, optionalSlot key value = optionalSlot key value' →
        given value = given value' := by
      intro key value value' hv
      exact Option.map_injective (fun a b hab => htext hab) (Prod.mk.inj hv).2
    have hlist : ∀ {key} {values values' : List String}, listSlot key values = listSlot key values' →
      values = values' := by
      intro key values values' hv
      have hv := (Prod.mk.inj hv).2
      have hinj : Function.Injective fun value : String => Toml.Scalar.string value.toList := by
        intro a b hab
        exact String.toList_inj.1 (Toml.Scalar.string.inj hab)
      by_cases hnil : values = [] <;> by_cases hnil' : values' = []
      · rw [hnil, hnil']
      · rw [if_pos hnil, if_neg hnil'] at hv
        cases hv
      · rw [if_neg hnil, if_pos hnil'] at hv
        cases hv
      · rw [if_neg hnil, if_neg hnil'] at hv
        exact List.map_injective_iff.2 hinj (Toml.Value.array.inj (Option.some.inj hv))
    unfold slots at hslots
    simp only [List.cons.injEq, Prod.mk.injEq, Option.some.injEq, true_and, and_true] at hslots
    obtain ⟨hid, hname, hruntime, himage, hdisplay, hpresentation, hprofile, hcommand, happ, hsocket, hcontainer, hpath,
      hcompress, hthreads, haudio, hargs, hmounts, henv⟩ := hslots
    have hcount : s.waypipeThreads = t.waypipeThreads := by
      refine Option.map_injective ?_ hthreads
      intro n m hnm
      simpa using hnm
    have hsound : s.audio = t.audio := by simpa using haudio
    unfold blanksAbsent
    rw [id_of_text hid, htext hname, htext hruntime, htext himage, hgiven hdisplay, hgiven hpresentation,
      hgiven hprofile,
      hgiven hcommand, hgiven happ, hgiven hsocket, hgiven hcontainer, hgiven hpath, hgiven hcompress, hcount, hsound,
      hlist hargs, hlist hmounts, hlist henv]
  · intro h
    rw [← sessionToToml_blanksAbsent s, h, sessionToToml_blanksAbsent]

end Signature

/-! ## Empty texts -/

/-- The command of the profile is an empty text. -/
def EmptyCommand (s : ContainerSession) : Prop :=
  s.command = some "" ∨ s.command = none ∧ s.profile ≠ some "niri" ∧ s.profile ≠ some "shell" ∧ s.app = some ""

/-- The socket in the container is an empty text, as it is given, or as that of the host, where it is the same. -/
def EmptyContainerSocket (s : ContainerSession) : Prop :=
  s.containerSocket = some "" ∨ s.containerSocket = none ∧ s.socket = some "" ∧
    normalizeContainerRuntime s.runtime ≠ .apple

/-- The profiles have the same of the texts empty for which a launch does not take an empty one for absent. -/
structure SameEmpties (s t : ContainerSession) : Prop where
  command : EmptyCommand s ↔ EmptyCommand t
  socket : s.socket = some "" ↔ t.socket = some ""
  containerSocket : EmptyContainerSocket s ↔ EmptyContainerSocket t

/-- The profiles have one text: they are equal up to empty texts. -/
structure SameText (s t : ContainerSession) : Prop where
  id : s.id = t.id
  name : s.name = t.name
  runtime : s.runtime = t.runtime
  image : s.image = t.image
  display : given s.display = given t.display
  presentation : given s.presentation = given t.presentation
  profile : given s.profile = given t.profile
  command : given s.command = given t.command
  app : given s.app = given t.app
  socket : given s.socket = given t.socket
  containerSocket : given s.containerSocket = given t.containerSocket
  waypipePath : given s.waypipePath = given t.waypipePath
  waypipeCompress : given s.waypipeCompress = given t.waypipeCompress
  waypipeThreads : s.waypipeThreads = t.waypipeThreads
  audio : s.audio = t.audio
  runtimeArgs : s.runtimeArgs = t.runtimeArgs
  mounts : s.mounts = t.mounts
  env : s.env = t.env

section Plans

variable {root : String} {s t : ContainerSession}

theorem sameText_of_blanksAbsent (h : blanksAbsent s = blanksAbsent t) : SameText s t := by
  simp only [blanksAbsent, ContainerSession.mk.injEq] at h
  obtain ⟨hid, hname, himage, hruntime, hdisplay, hpresentation, hprofile, happ, hcommand, hsocket, hcontainer, hpath,
    hcompress,
    hthreads, haudio, hargs, hmounts, henv⟩ := h
  exact ⟨hid, hname, hruntime, himage, hdisplay, hpresentation, hprofile, hcommand, happ, hsocket, hcontainer, hpath,
    hcompress,
    hthreads, haudio, hargs, hmounts, henv⟩

theorem given_none {value : Option String} (h : value ≠ some "") : given value = value := by
  cases value with
  | none => rfl
  | some text =>
    have htext : text ≠ "" := by
      rintro rfl
      exact h rfl
    simp [given, htext]

theorem eq_of_given {value value' : Option String} (h : given value = given value')
    (he : value = some "" ↔ value' = some "") :
    value = value' := by
  by_cases hv : value = some ""
  · rw [hv, he.1 hv]
  · rw [← given_none hv, h, given_none (mt he.2 hv)]

/-- What takes an empty text for an absent one tells no more than the texts that are given. -/
theorem congr_given {α : Type} (f : Option String → α) (hf : f (some "") = f none) {value value' : Option String}
    (h : given value = given value') : f value = f value' := by
  have hgiven : ∀ v, f (given v) = f v := by
    intro v
    by_cases hv : v = some ""
    · rw [hv]
      exact hf.symm
    · rw [given_none hv]
  rw [← hgiven value, h, hgiven]

theorem sessionCommand_eq_empty : sessionCommand s = "" ↔ EmptyCommand s := by
  unfold sessionCommand EmptyCommand
  cases s.command with
  | some command => simp
  | none =>
    by_cases hniri : s.profile = some "niri"
    · simp [hniri]
    · by_cases hshell : s.profile = some "shell"
      · simp [hshell]
      · cases happ : s.app with
        | none => simp [hniri, hshell]
        | some app => simp [hniri, hshell]

theorem defaultContainerSocket_ne_empty (root name : String) : defaultContainerSocket root name ≠ "" := by
  intro h
  have h := congrArg String.toList h
  simp [defaultContainerSocket, String.toList_append] at h

theorem hostSocket_eq_empty : hostSocket root s = "" ↔ s.socket = some "" := by
  unfold hostSocket
  cases s.socket with
  | none => simp [defaultContainerSocket_ne_empty]
  | some socket => simp

theorem containerSocket_eq_empty : containerSocket root s = "" ↔ EmptyContainerSocket s := by
  have hhost := @hostSocket_eq_empty root s
  unfold containerSocket EmptyContainerSocket
  cases s.containerSocket with
  | some socket => simp
  | none =>
    cases normalizeContainerRuntime s.runtime with
    | apple => simp [defaultContainerSocketPath]
    | docker | orbStack => simp [defaultContainerSocketPath, hhost]

/-- The commands of profiles that are equal up to empty texts are equal, unless one is empty. -/
theorem sessionCommand_congr (hs : SameText s t) (h : EmptyCommand s ↔ EmptyCommand t) :
    sessionCommand s = sessionCommand t := by
  by_cases hempty : EmptyCommand s
  · rw [sessionCommand_eq_empty.2 hempty, sessionCommand_eq_empty.2 (h.1 hempty)]
  have hempty' := mt h.2 hempty
  have hsame : s.command = t.command := by
    rw [← given_none (mt Or.inl hempty), hs.command, given_none (mt Or.inl hempty')]
  have hniri := congr_given (fun profile => decide (profile = some "niri")) rfl hs.profile
  have hshell := congr_given (fun profile => decide (profile = some "shell")) rfl hs.profile
  simp only [decide_eq_decide] at hniri hshell
  unfold EmptyCommand at hempty hempty'
  unfold sessionCommand
  rw [hsame] at hempty ⊢
  cases hc : t.command with
  | some command => rfl
  | none =>
    simp only [hniri, hshell]
    by_cases h1 : t.profile = some "niri"
    · rw [if_pos h1, if_pos h1]
    · by_cases h2 : t.profile = some "shell"
      · rw [if_neg h1, if_neg h1, if_pos h2, if_pos h2]
      · simp only [hc, hniri, hshell, h1, h2, reduceCtorEq, false_or, true_and, ne_eq,
          not_false_eq_true] at hempty hempty'
        rw [eq_of_given hs.app (iff_of_false hempty hempty')]

theorem isRootless_congr (h : given s.presentation = given t.presentation) : isRootless s = isRootless t :=
  congr_given (fun value => value.any fun value => asciiLowercase (trim value) = "rootless") (by decide) h

theorem sessionCommandBinary_congr (h : sessionCommand s = sessionCommand t) :
    sessionCommandBinary s = sessionCommandBinary t := by
  unfold sessionCommandBinary
  rw [h]

theorem validateDisplaySlot_congr (h : given s.display = given t.display) :
    validateDisplaySlot s = validateDisplaySlot t := by
  have hslot : (s.display.map trim).filter (· ≠ "") = (t.display.map trim).filter (· ≠ "") :=
    congr_given (fun value => (value.map trim).filter (· ≠ "")) (by decide) h
  unfold validateDisplaySlot
  rw [hslot]

theorem validatePresentationCommand_congr (hpresentation : given s.presentation = given t.presentation)
    (hcommand : sessionCommand s = sessionCommand t) :
    validatePresentationCommand s = validatePresentationCommand t := by
  unfold validatePresentationCommand
  rw [isRootless_congr hpresentation, sessionCommandBinary_congr hcommand]

theorem isRefused_empty {value : Option String} (h : value = some "") : value.any refusedHostSocket = true := by
  have hempty : refusedHostSocket "" = true := by decide
  rw [h, Option.any_some, hempty]

/-- Where the empty texts for the sockets in the container differ, both profiles are refused for that of the host. -/
theorem containerSocket_congr (hgiven : given s.containerSocket = given t.containerSocket) (h : SameEmpties s t) :
    s.containerSocket = t.containerSocket ∨ s.socket = some "" ∧ t.socket = some "" := by
  by_cases hempty : s.containerSocket = some "" ↔ t.containerSocket = some ""
  · exact .inl (eq_of_given hgiven hempty)
  · refine .inr ?_
    have hboth := h.containerSocket
    unfold EmptyContainerSocket at hboth
    -- one is empty as it is given, so the other is as that of the host
    by_cases hs : s.containerSocket = some ""
    · have ht : ¬ t.containerSocket = some "" := fun ht => hempty (iff_of_true hs ht)
      obtain ⟨-, hsocket, -⟩ := (hboth.1 (.inl hs)).resolve_left ht
      exact ⟨h.socket.2 hsocket, hsocket⟩
    · have ht : t.containerSocket = some "" := by
        by_contra ht
        exact hempty (iff_of_false hs ht)
      obtain ⟨-, hsocket, -⟩ := (hboth.2 (.inl ht)).resolve_left hs
      exact ⟨hsocket, h.socket.1 hsocket⟩

theorem validateSession_congr (hs : SameText s t) (h : SameEmpties s t) :
    validateSession s = validateSession t := by
  have hsocket : s.socket = t.socket := eq_of_given hs.socket h.socket
  have hcommand : sessionCommand s = sessionCommand t :=
    sessionCommand_congr hs h.command
  have hdisplay := validateDisplaySlot_congr hs.display
  have hpresentation := validatePresentationCommand_congr hs.presentation hcommand
  unfold validateSession
  rw [hs.name, hs.runtime, hs.image, hs.waypipeThreads, hsocket, hcommand, hdisplay, hpresentation]
  rcases containerSocket_congr hs.containerSocket h with hcontainer | ⟨-, hempty⟩
  · rw [hcontainer]
  · have hrefused := isRefused_empty hempty
    generalize t.socket.any refusedHostSocket = refused at hrefused ⊢
    subst hrefused
    simp only [if_true]

theorem containerSocket_eq (hs : SameText s t) (h : SameEmpties s t) :
    containerSocket root s = containerSocket root t := by
  by_cases hempty : EmptyContainerSocket s
  · rw [containerSocket_eq_empty.2 hempty, containerSocket_eq_empty.2 (h.containerSocket.1 hempty)]
  have hempty' := mt h.containerSocket.2 hempty
  have hcontainer : s.containerSocket = t.containerSocket :=
    eq_of_given hs.containerSocket
      (iff_of_false (fun hs => hempty (.inl hs)) fun ht => hempty' (.inl ht))
  have hsocket : s.socket = t.socket := eq_of_given hs.socket h.socket
  unfold containerSocket hostSocket
  rw [hcontainer, hsocket, hs.name, hs.runtime]

/-- Profiles with one text are launched alike exactly when they have the same of these empty. -/
theorem launchPlan_eq_iff (hs : SameText s t) : launchPlan root s = launchPlan root t ↔ SameEmpties s t := by
  constructor
  · intro h
    have hcommand : sessionCommand s = sessionCommand t := congrArg LaunchPlan.command h
    have hhost : hostSocket root s = hostSocket root t := congrArg LaunchPlan.hostSocket h
    have hcontainer : containerSocket root s = containerSocket root t := congrArg LaunchPlan.containerSocket h
    refine ⟨?_, ?_, ?_⟩
    · rw [← sessionCommand_eq_empty, hcommand, sessionCommand_eq_empty]
    · rw [← @hostSocket_eq_empty root s, hhost, hostSocket_eq_empty]
    · rw [← @containerSocket_eq_empty root s, hcontainer, containerSocket_eq_empty]
  · intro h
    have hsocket : s.socket = t.socket := eq_of_given hs.socket h.socket
    have hcommand : sessionCommand s = sessionCommand t :=
      sessionCommand_congr hs h.command
    have hnested : usesNestedWaylandCompositor s = usesNestedWaylandCompositor t := by
      have hprofile : s.profile.getD "" = t.profile.getD "" := congr_given (fun value => value.getD "") rfl hs.profile
      unfold usesNestedWaylandCompositor
      rw [sessionCommandBinary_congr hcommand, hprofile]
    have hwaypipe : configuredWaypipe s = configuredWaypipe t :=
      congr_given (fun value => (value.filter (trim · ≠ "")).map trim) (by decide) hs.waypipePath
    have hargsFor : ∀ runtime, waypipeTuningArgs s runtime = waypipeTuningArgs t runtime := by
      intro runtime
      have hcompress : (s.waypipeCompress.map trim).filter (· ≠ "") = (t.waypipeCompress.map trim).filter (· ≠ "") :=
        congr_given (fun value => (value.map trim).filter (· ≠ "")) (by decide) hs.waypipeCompress
      unfold waypipeTuningArgs
      rw [hs.waypipeThreads, hcompress]
    have hcontainerName : containerName s = containerName t := by
      unfold containerName
      rw [hs.name]
    unfold launchPlan
    rw [validateSession_congr hs h, hs.runtime, hcontainerName, hs.image, hcommand,
      isRootless_congr hs.presentation, hnested, hwaypipe, hargsFor, containerSocket_eq hs h,
      hs.audio, hs.env, hs.mounts, hs.runtimeArgs]
    unfold hostSocket
    rw [hsocket, hs.name]

end Plans

/-! ## Resolving -/

section Resolve

variable {captured s : ContainerSession} {sessions : List ContainerSession}

/-- The first profile of the configuration that is the captured one up to empty texts. -/
def FirstAlike (captured : ContainerSession) (sessions : List ContainerSession) (s : ContainerSession) : Prop :=
  ∃ before after, sessions = before ++ s :: after ∧ blanksAbsent s = blanksAbsent captured ∧
    ∀ u ∈ before, blanksAbsent u ≠ blanksAbsent captured

theorem matches_iff : (s.id = captured.id && sessionToToml s = sessionToToml captured) = true ↔
    blanksAbsent s = blanksAbsent captured := by
  rw [Bool.and_eq_true, decide_eq_true_eq, decide_eq_true_eq, sessionToToml_eq_iff]
  refine ⟨And.right, fun h => ⟨?_, h⟩⟩
  exact (sameText_of_blanksAbsent h).id

theorem resolve_iff : (ProfileActionTarget.capture captured).resolve sessions = some s ↔
    FirstAlike captured sessions s := by
  have hmatch : ∀ u : ContainerSession, (u.id = captured.id && sessionToToml u = sessionToToml captured) = true ↔
      blanksAbsent u = blanksAbsent captured := fun u => matches_iff
  unfold ProfileActionTarget.resolve ProfileActionTarget.capture FirstAlike
  rw [List.find?_eq_some_iff_append]
  constructor
  · rintro ⟨hs, before, after, rfl, hbefore⟩
    refine ⟨before, after, rfl, (hmatch s).1 hs, ?_⟩
    intro u hu heq
    have hno := hbefore u hu
    rw [(hmatch u).2 heq] at hno
    cases hno
  · rintro ⟨before, after, rfl, hs, hbefore⟩
    refine ⟨(hmatch s).2 hs, before, after, rfl, ?_⟩
    intro u hu
    rw [Bool.not_eq_true']
    exact Bool.eq_false_iff.2 (mt (hmatch u).1 (hbefore u hu))

/-- What is found again has the identifier that was captured, and is launched as it was. -/
def ResolvesFaithfully (root : String) (captured : ContainerSession) (sessions : List ContainerSession) : Prop :=
  ∀ s, (ProfileActionTarget.capture captured).resolve sessions = some s →
    s.id = captured.id ∧ launchPlan root s = launchPlan root captured

theorem resolvesFaithfully_iff (root : String) (captured : ContainerSession) (sessions : List ContainerSession) :
    ResolvesFaithfully root captured sessions ↔ ∀ s, FirstAlike captured sessions s → SameEmpties s captured := by
  have halike : ∀ s, FirstAlike captured sessions s → blanksAbsent s = blanksAbsent captured := by
    rintro s ⟨_, _, -, hs, -⟩
    exact hs
  constructor
  · intro h s hs
    exact (launchPlan_eq_iff (sameText_of_blanksAbsent (halike s hs))).1 (h s (resolve_iff.2 hs)).2
  · intro h s hs
    have hs := resolve_iff.1 hs
    refine ⟨(sameText_of_blanksAbsent (halike s hs)).id, ?_⟩
    exact (launchPlan_eq_iff (sameText_of_blanksAbsent (halike s hs))).2 (h s hs)

/-- A profile without a command, and the profile as it is when an empty command is written to the configuration. -/
def plainProfile : ContainerSession where
  id := .ofByte 1
  name := "editor"
  image := "editor"

def emptiedProfile : ContainerSession := { plainProfile with command := some "" }

theorem emptied_resolved : (ProfileActionTarget.capture plainProfile).resolve [emptiedProfile] = some emptiedProfile ∧
    validateSession plainProfile = .ok () ∧ validateSession emptiedProfile ≠ .ok () ∧
    ¬ ResolvesFaithfully "/tmp" plainProfile [emptiedProfile] := by
  have hfound : (ProfileActionTarget.capture plainProfile).resolve [emptiedProfile] = some emptiedProfile := by
    refine List.find?_cons_of_pos ?_
    decide +kernel
  have hplain : validateSession plainProfile = .ok () := by decide +kernel
  have hemptied : validateSession emptiedProfile ≠ .ok () := by decide +kernel
  refine ⟨hfound, hplain, hemptied, ?_⟩
  intro h
  have hplan : validateSession emptiedProfile = validateSession plainProfile :=
    congrArg LaunchPlan.validation (h _ hfound).2
  exact hemptied (hplan.trans hplain)

end Resolve

end CocoaWay.Sessions
