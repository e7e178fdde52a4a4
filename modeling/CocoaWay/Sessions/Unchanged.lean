import CocoaWay.Sessions.Capture
import CocoaWay.Sessions.Fields
import CocoaWay.Sessions.Stored

/-!
# A profile that is opened and saved

* `Checked`, `checked_iff` : what validation accepts;
* `edited` : the profile of the dialog; `dialogSession_unchanged`;
* `Unaltered` : when nothing of it matters to a launch; `launchesAlike_iff`;
* `Storable` : when it can take the place of the one that was opened; `replace_edited`;
* `resolveSession_edited` : what is loaded then; `keepsLaunch_iff`.
-/

namespace CocoaWay.Sessions

open Control (ProfileId)
open Launch (trim isWhitespace toAsciiLowercase slugify displaySlotSlug)
open ProfileConfig (ContainerSession ConfigFile Answers Document Entries Saved replace resolveSession runtimeBinaryName
  containerName validateProfileName writable)

/-! ## Validation -/

structure Checked (s : ContainerSession) : Prop where
  runtime : trim s.runtime ∈ ["container", "apple", "apple-container", "docker", "orb", "orbstack"]
  name : trim s.name ≠ ""
  nameText : s.name.toList.any isControl = false
  image : trim s.image ≠ ""
  imageText : (s.image.toList.any fun c => isWhitespace c || isControl c) = false
  imageOption : s.image.toList.head? ≠ some '-'
  command : trim (sessionCommand s) ≠ ""
  commandText : hasNul (sessionCommand s) = false
  threads : s.waypipeThreads ≠ some 0
  socket : s.socket.any refusedHostSocket = false
  containerSocket : s.containerSocket.any refusedContainerSocket = false
  display : validateDisplaySlot s = .ok ()
  presentation : validatePresentationCommand s = .ok ()

variable {s : ContainerSession}

theorem checked_iff : validateSession s = .ok () ↔ Checked s := by
  constructor
  · intro h
    unfold validateSession at h
    dsimp only at h
    split at h
    · cases h
    next hruntime =>
    split at h
    · cases h
    next hname =>
    split at h
    · cases h
    next himage =>
    split at h
    · cases h
    next hcommand =>
    split at h
    · cases h
    next hthreads =>
    split at h
    · cases h
    next hsocket =>
    split at h
    · cases h
    next hcontainer =>
    simp only [not_or, Bool.not_eq_true, not_not] at hruntime hname himage hcommand hsocket hcontainer
    cases hdisplay : validateDisplaySlot s with
    | error e =>
      rw [hdisplay] at h
      cases h
    | ok u =>
      rw [hdisplay] at h
      exact ⟨hruntime, hname.1, hname.2, himage.1, himage.2.1, himage.2.2, hcommand.1, hcommand.2, hthreads, hsocket,
        hcontainer, hdisplay, h⟩
  · intro h
    unfold validateSession
    dsimp only
    rw [if_neg (not_not.2 h.runtime), if_neg (by simp [h.name, h.nameText]),
      if_neg (by simp only [h.image, h.imageText, h.imageOption, Bool.false_eq_true, or_self, not_false_eq_true]),
      if_neg (by simp [h.command, h.commandText]),
      if_neg h.threads, if_neg (by simp [h.socket]), if_neg (by simp [h.containerSocket]), h.display]
    exact h.presentation

/-! ## The profile of the dialog -/

/-- The word in the field of the profile. -/
def profileWord (s : ContainerSession) : String := asciiLowercase (trim ((s.profile.filter (· ≠ "")).getD "niri"))

/-- The text in the field of the command. -/
def commandField (s : ContainerSession) : String := trim ((s.command.or s.app).getD "")

/-- What the display is asked for as. -/
def requestedDisplay (s : ContainerSession) : String := (s.display.map trim).getD "auto"

def edited (s : ContainerSession) : ContainerSession :=
  { s with
    name := trim s.name
    runtime := trim s.runtime
    display := some (if requestedDisplay s = "" then "auto" else requestedDisplay s)
    presentation := some (if s.presentation.any (asciiLowercase · = "rootless") then "rootless" else "desktop")
    profile := normalizeProfile (profileWord s)
    command := if commandField s = "" then none else some (commandField s)
    mounts := semicolonList (fieldString ("; ".intercalate s.mounts))
    env := semicolonList (fieldString ("; ".intercalate s.env)) }

theorem trim_ne_empty {text : String} (h : trim text ≠ "") : text ≠ "" := by
  rintro rfl
  exact h (by decide)

theorem displayField_eq (s : ContainerSession) :
    (if trim (if s.display.getD "auto" = "" then "auto" else s.display.getD "auto") = "" then "auto"
      else trim (if s.display.getD "auto" = "" then "auto" else s.display.getD "auto")) =
      if requestedDisplay s = "" then "auto" else requestedDisplay s := by
  unfold requestedDisplay
  cases s.display with
  | none => decide
  | some display =>
    by_cases hempty : display = ""
    · subst hempty
      decide
    · simp only [Option.getD_some, Option.map_some, if_neg hempty]

theorem presentationField_eq (s : ContainerSession) :
    (if (if asciiLowercase (s.presentation.getD "desktop") = "rootless" then 1 else 0) =
      1 then "rootless" else "desktop") =
      if s.presentation.any (asciiLowercase · = "rootless") then "rootless" else "desktop" := by
  cases s.presentation with
  | none => decide
  | some presentation => by_cases h : asciiLowercase presentation = "rootless" <;> simp [h]

theorem profileField_eq (s : ContainerSession) :
    normalizeProfile (trim (if s.profile.getD "niri" = "" then "niri" else s.profile.getD "niri")) =
      normalizeProfile (profileWord s) := by
  have hshown : (if s.profile.getD "niri" = "" then "niri" else s.profile.getD "niri") =
      (s.profile.filter (· ≠ "")).getD "niri" := by
    cases s.profile with
    | none => rfl
    | some profile => by_cases h : profile = "" <;> simp [Option.filter, h]
  unfold normalizeProfile profileWord
  rw [hshown, trim_asciiLowercase, asciiLowercase_idem]

/-- A profile that is checked is not refused, unless its runtime has no audio. -/
theorem dialogSession_unchanged (h : Checked s) :
    dialogSession (showSessionDialog (defaultsFromSession s)) (some s) =
    if s.audio = true ∧ trim s.runtime ∈ ["docker", "orb", "orbstack"] then
      .error "Audio forwarding currently requires Apple Container."
    else .ok (edited s) := by
  have himage : trim s.image = s.image := by
    have hnone : ∀ c ∈ s.image.toList, isWhitespace c = false := by
      intro c hc
      have htext := List.any_eq_false.1 h.imageText c hc
      rw [Bool.or_eq_true, not_or] at htext
      exact Bool.eq_false_iff.2 htext.1
    exact trim_of_ends (fun c hc => hnone c (List.mem_of_mem_head? hc)) (fun c hc => hnone c (List.mem_of_getLast? hc))
  have hruntime : trim s.runtime ≠ "" := fun hempty => absurd h.runtime (by rw [hempty]; decide)
  have haudio : (if s.audio = true then 1 else 0) = 1 ↔ s.audio = true := by cases s.audio <;> decide
  unfold dialogSession showSessionDialog defaultsFromSession fieldString
  dsimp only
  rw [if_neg h.image, if_neg (trim_ne_empty hruntime), if_neg hruntime, if_neg h.name, displayField_eq,
    presentationField_eq,
    profileField_eq]
  simp only [haudio, Bool.decide_eq_true, himage]
  rfl

/-! ## What a launch reads of it -/

def desktopWords : List String := ["desktop", "niri", "niri-desktop"]

def shellWords : List String := ["debug", "shell", "sh"]

theorem profileWord_fixed (s : ContainerSession) : asciiLowercase (trim (profileWord s)) = profileWord s := by
  unfold profileWord
  rw [trim_asciiLowercase, asciiLowercase_idem, trim_trim]

section Word

variable {word : String}

theorem normalizeProfile_niri (h : asciiLowercase (trim word) = word) :
    normalizeProfile word = some "niri" ↔ word ∈ desktopWords := by
  unfold normalizeProfile
  rw [h]
  dsimp only
  split
  next hempty => exact iff_of_false nofun (by rw [hempty]; decide)
  split
  next hdesktop => exact iff_of_true rfl hdesktop
  next hdesktop =>
    refine iff_of_false (fun heq => ?_) hdesktop
    split at heq
    · exact absurd heq (by decide)
    split at heq
    · exact absurd heq (by decide)
    · exact hdesktop (by rw [Option.some.inj heq]; decide)

theorem normalizeProfile_shell (h : asciiLowercase (trim word) = word) :
    normalizeProfile word = some "shell" ↔ word ∈ shellWords := by
  unfold normalizeProfile
  rw [h]
  dsimp only
  split
  next hempty => exact iff_of_false nofun (by rw [hempty]; decide)
  split
  next hdesktop =>
    have hdisjoint : ∀ w ∈ desktopWords, w ∉ shellWords := by decide
    exact iff_of_false (by decide) (hdisjoint word hdesktop)
  split
  next happ =>
    have hdisjoint : ∀ w ∈ ["app", "single", "single-app"], w ∉ shellWords := by decide
    exact iff_of_false (by decide) (hdisjoint word happ)
  split
  next hshell => exact iff_of_true rfl hshell
  next hshell =>
    refine iff_of_false (fun heq => ?_) hshell
    exact hshell (by rw [Option.some.inj heq]; decide)

/-- The words that become the profile of a compositor. -/
theorem normalizeProfile_nested (h : asciiLowercase (trim word) = word) :
    asciiLowercase ((normalizeProfile word).getD "") ∈ nestedCompositors ↔
      word ∈ desktopWords ++ nestedCompositors := by
  unfold normalizeProfile
  rw [h]
  dsimp only
  split
  next hempty => exact iff_of_false (by decide) (by rw [hempty]; decide)
  split
  next hdesktop => exact iff_of_true (by decide) (List.mem_append_left _ hdesktop)
  next hdesktop =>
  have hword : word ∈ desktopWords ++ nestedCompositors ↔ word ∈ nestedCompositors := by
    rw [List.mem_append]
    exact or_iff_right hdesktop
  rw [hword]
  split
  next happ =>
    have hdisjoint : ∀ w ∈ ["app", "single", "single-app"], w ∉ nestedCompositors := by decide
    exact iff_of_false (by decide) (hdisjoint word happ)
  split
  next hshell =>
    have hdisjoint : ∀ w ∈ shellWords, w ∉ nestedCompositors := by decide
    exact iff_of_false (by decide) (hdisjoint word hshell)
  · rw [Option.getD_some]
    nth_rewrite 1 [← h]
    rw [asciiLowercase_idem, h]

end Word

/-- The text of the command field is what the command was; without one, the profile is a desktop or a shell, or becomes
neither. -/
def CommandKept (s : ContainerSession) : Prop :=
  match s.command.or s.app with
  | some text => trim text ≠ "" → sessionCommand s = trim text
  | none => s.profile = some "niri" ∨ s.profile = some "shell" ∨ profileWord s ∉ desktopWords ++ shellWords

/-- The command is that of a compositor, or the word of the profile is no word of one unless the profile was. -/
def CompositorKept (s : ContainerSession) : Prop :=
  (((sessionCommandBinary s).bind fileName).map asciiLowercase).any (· ∈ nestedCompositors) = true ∨
    (profileWord s ∈ desktopWords ++ nestedCompositors → asciiLowercase (s.profile.getD "") ∈ nestedCompositors)

theorem isRootless_edited (s : ContainerSession) :
    isRootless (edited s) = s.presentation.any (asciiLowercase · = "rootless") := by
  unfold isRootless edited
  dsimp only
  rw [Option.any_some]
  cases s.presentation.any (asciiLowercase · = "rootless") <;> decide

theorem isRootless_of_word (h : s.presentation.any (asciiLowercase · = "rootless") = true) : isRootless s = true := by
  unfold isRootless
  cases hpresentation : s.presentation with
  | none => simp [hpresentation] at h
  | some presentation =>
    rw [hpresentation, Option.any_some, decide_eq_true_eq] at h
    rw [Option.any_some, trim_of_lowercase h (by decide), h]
    rfl

theorem profile_edited (s : ContainerSession) : (edited s).profile = normalizeProfile (profileWord s) := by
  simp only [edited]

/-- A blank command is refused, so that a blank text in its field is that of an application that the profile is not
launched with. -/
theorem profile_of_blank (h : Checked s) {text : String} (hfield : s.command.or s.app = some text)
    (hempty : trim text = "") : s.command = none ∧ (s.profile = some "niri" ∨ s.profile = some "shell") := by
  have hcommand : s.command = none := by
    cases hc : s.command with
    | none => rfl
    | some command =>
      rw [hc, Option.some_or] at hfield
      obtain rfl := Option.some.inj hfield
      have hblank := h.command
      rw [sessionCommand, hc] at hblank
      exact absurd hempty hblank
  refine ⟨hcommand, ?_⟩
  have happ : s.app = some text := by rwa [hcommand, Option.none_or] at hfield
  by_contra hother
  rw [not_or] at hother
  have hblank := h.command
  rw [sessionCommand, hcommand] at hblank
  dsimp only at hblank
  rw [if_neg hother.1, if_neg hother.2, happ] at hblank
  exact hblank hempty

theorem profile_edited_fixed (h : s.profile = some "niri" ∨ s.profile = some "shell") :
    (edited s).profile = s.profile := by
  rw [profile_edited, profileWord]
  rcases h with h | h <;> rw [h] <;> decide

theorem sessionCommand_edited (h : Checked s) : sessionCommand (edited s) = sessionCommand s ↔ CommandKept s := by
  have hniri := normalizeProfile_niri (profileWord_fixed s)
  have hshell := normalizeProfile_shell (profileWord_fixed s)
  unfold CommandKept
  cases hfield : s.command.or s.app with
  | some text =>
    have hcommand : commandField s = trim text := by rw [commandField, hfield, Option.getD_some]
    dsimp only
    by_cases hempty : trim text = ""
    · obtain ⟨hcommandNone, hprofile⟩ := profile_of_blank h hfield hempty
      refine iff_of_true ?_ fun hne => absurd hempty hne
      have hcommandEdited : (edited s).command = none := by
        unfold edited
        dsimp only
        rw [hcommand, if_pos hempty]
      unfold sessionCommand
      rw [hcommandEdited, hcommandNone, profile_edited_fixed hprofile]
      rcases hprofile with hprofile | hprofile <;> rw [hprofile] <;> rfl
    · have hedited : sessionCommand (edited s) = trim text := by
        unfold sessionCommand edited
        rw [hcommand, if_neg hempty]
      rw [hedited]
      exact ⟨fun heq _ => heq.symm, fun heq => (heq hempty).symm⟩
  | none =>
    obtain ⟨hcommandNone, happ⟩ := Option.or_eq_none_iff.1 hfield
    have hcommandEdited : (edited s).command = none := by
      have hempty : commandField s = "" := by
        rw [commandField, hfield]
        decide
      simp only [edited, if_pos hempty]
    have happEdited : (edited s).app = none := by simp only [edited, happ]
    dsimp only
    unfold sessionCommand
    rw [hcommandEdited, hcommandNone, happEdited, happ, profile_edited]
    dsimp only [Option.getD_none]
    by_cases hprofile : s.profile = some "niri"
    · have hword : profileWord s = "niri" := by
        rw [profileWord, hprofile]
        decide
      rw [if_pos hprofile, if_pos (hniri.2 (by rw [hword]; decide))]
      exact iff_of_true rfl (.inl hprofile)
    rw [if_neg hprofile, or_iff_right hprofile]
    by_cases hprofileShell : s.profile = some "shell"
    · have hword : profileWord s = "shell" := by
        rw [profileWord, hprofileShell]
        decide
      rw [if_pos hprofileShell, if_neg (mt hniri.1 (by rw [hword]; decide)), if_pos (hshell.2 (by rw [hword]; decide))]
      exact iff_of_true rfl (.inl hprofileShell)
    rw [if_neg hprofileShell, or_iff_right hprofileShell, List.mem_append]
    by_cases hdesktopWord : profileWord s ∈ desktopWords
    · rw [if_pos (hniri.2 hdesktopWord)]
      exact iff_of_false (by decide) fun hno => hno (.inl hdesktopWord)
    rw [if_neg (mt hniri.1 hdesktopWord)]
    by_cases hshellWord : profileWord s ∈ shellWords
    · rw [if_pos (hshell.2 hshellWord)]
      exact iff_of_false (by decide) fun hno => hno (.inr hshellWord)
    · rw [if_neg (mt hshell.1 hshellWord)]
      exact iff_of_true rfl fun hword => hword.elim hdesktopWord hshellWord

theorem usesNested_edited (hcommand : sessionCommand (edited s) = sessionCommand s) :
    usesNestedWaylandCompositor (edited s) = usesNestedWaylandCompositor s ↔ CompositorKept s := by
  have hword := normalizeProfile_nested (profileWord_fixed s)
  have hbinary := sessionCommandBinary_congr hcommand
  unfold usesNestedWaylandCompositor CompositorKept
  rw [hbinary, profile_edited]
  cases (((sessionCommandBinary s).bind fileName).map asciiLowercase).any (· ∈ nestedCompositors) with
  | true => simp
  | false =>
    rw [Bool.or_false, Bool.or_false, decide_eq_decide, hword, or_iff_right Bool.false_ne_true]
    refine ⟨Iff.mp, fun hkept => ⟨hkept, fun hnested => ?_⟩⟩
    -- a compositor's profile has no white space around it, so that it is its own word
    have htext : ∀ word ∈ nestedCompositors, word.toList.any isWhitespace = false := by decide
    cases hprofile : s.profile with
    | none =>
      rw [hprofile] at hnested
      exact absurd hnested (by decide)
    | some profile =>
      rw [hprofile, Option.getD_some] at hnested
      have hne : profile ≠ "" := by
        rintro rfl
        exact absurd hnested (by decide)
      have hword : profileWord s = asciiLowercase profile := by
        rw [profileWord, hprofile, Option.filter_some_pos (by simpa using hne), Option.getD_some,
          trim_of_lowercase rfl (htext _ hnested)]
      rw [hword]
      exact List.mem_append_right _ hnested

/-! ## What is launched -/

theorem trim_requestedDisplay (s : ContainerSession) :
    trim (if requestedDisplay s = "" then "auto" else requestedDisplay s) =
      if requestedDisplay s = "" then "auto" else requestedDisplay s := by
  split
  · decide
  · unfold requestedDisplay
    cases s.display with
    | none => decide
    | some display => exact trim_trim display

theorem displaySlot_eq (s : ContainerSession) : ((s.display.map trim).filter (· ≠ "")).getD "auto" =
    if requestedDisplay s = "" then "auto" else requestedDisplay s := by
  unfold requestedDisplay
  cases s.display with
  | none => rfl
  | some display => by_cases hempty : trim display = "" <;> simp [Option.filter, hempty]

theorem launched_isRootless (s : ContainerSession) : (launched s).isRootless = isRootless s := by
  unfold launched Launch.Session.isRootless isRootless
  cases s.presentation with
  | none => rfl
  | some presentation =>
    dsimp only [Option.any_some]
    simp only [asciiLowercase, ← String.toList_inj, String.toList_ofList]

theorem chooseDisplayAssignment_edited (h : isRootless (edited s) = isRootless s) (inUse : Bool) :
    Launch.chooseDisplayAssignment (launched (edited s)) inUse = Launch.chooseDisplayAssignment (launched s) inUse := by
  have hdisplay : ((launched (edited s)).display.map trim).getD "auto" =
      if requestedDisplay s = "" then "auto" else requestedDisplay s := by
    simp only [launched, edited, Option.map_some, Option.getD_some]
    exact trim_requestedDisplay s
  have hbefore : ((launched s).display.map trim).getD "auto" = requestedDisplay s := rfl
  have hname : (launched (edited s)).name = trim (launched s).name := by simp only [launched, edited]
  unfold Launch.chooseDisplayAssignment
  rw [launched_isRootless, launched_isRootless, h, hdisplay, hbefore, hname]
  dsimp only
  by_cases hempty : requestedDisplay s = ""
  · simp only [hempty, if_true, displaySlotSlug_trim, true_or, or_true, true_and]
  · simp only [if_neg hempty]
    by_cases hnamed : requestedDisplay s = "auto" ∨ requestedDisplay s = "default" ∨ requestedDisplay s = "dedicated"
    · simp only [hnamed, or_true, if_true, displaySlotSlug_trim]
    · simp only [displaySlotSlug_trim, hempty, hnamed, or_false, if_false]

/-- When the profile of the dialog is not refused, and launched as the one that was opened. -/
structure Unaltered (s : ContainerSession) : Prop where
  audio : s.audio = true → trim s.runtime ∉ ["docker", "orb", "orbstack"]
  presentation : isRootless s = true → s.presentation.any (asciiLowercase · = "rootless") = true
  command : CommandKept s
  compositor : CompositorKept s
  name : s.socket = none → socketName (trim s.name) = socketName s.name
  mounts : ∀ mount ∈ s.mounts, Item mount
  env : ∀ entry ∈ s.env, Item entry

theorem checked_edited (h : Checked s) (hcommand : sessionCommand (edited s) = sessionCommand s)
    (hrootless : isRootless (edited s) = isRootless s) : Checked (edited s) where
  runtime := by
    have hruntime : (edited s).runtime = trim s.runtime := by simp only [edited]
    rw [hruntime, trim_trim]
    exact h.runtime
  name := by
    have hname : (edited s).name = trim s.name := by simp only [edited]
    rw [hname, trim_trim]
    exact h.name
  nameText := by
    have hname : (edited s).name = trim s.name := by simp only [edited]
    rw [hname, List.any_eq_false]
    exact fun c hc => List.any_eq_false.1 h.nameText c (mem_trim hc)
  image := h.image
  imageText := h.imageText
  imageOption := h.imageOption
  command := by rw [hcommand]; exact h.command
  commandText := by rw [hcommand]; exact h.commandText
  threads := h.threads
  socket := h.socket
  containerSocket := h.containerSocket
  display := by
    have hdisplay : ((edited s).display.map trim).filter (· ≠ "") =
        some (if requestedDisplay s = "" then "auto" else requestedDisplay s) := by
      simp only [edited, Option.map_some]
      rw [trim_requestedDisplay, Option.filter_some_pos]
      split
      · decide
      next hne => exact decide_eq_true hne
    have hchecked := h.display
    unfold validateDisplaySlot at hchecked ⊢
    rw [displaySlot_eq] at hchecked
    rwa [hdisplay, Option.getD_some]
  presentation := by
    have hchecked := h.presentation
    unfold validatePresentationCommand at hchecked ⊢
    rwa [hrootless, sessionCommandBinary_congr hcommand]

theorem hostSocket_edited : (∀ root, hostSocket root (edited s) = hostSocket root s) ↔
    (s.socket = none → socketName (trim s.name) = socketName s.name) := by
  have hsocket : (edited s).socket = s.socket := by simp only [edited]
  have hname : (edited s).name = trim s.name := by simp only [edited]
  unfold hostSocket defaultContainerSocket
  rw [hsocket, hname]
  cases s.socket with
  | some socket => simp
  | none =>
    constructor
    · intro h _
      have htext := congrArg String.toList (h "")
      simpa [String.toList_inj] using htext
    · intro h root
      rw [Option.getD_none, Option.getD_none, h rfl]

theorem containerName_edited (s : ContainerSession) : containerName (edited s) = containerName s := by
  simp only [edited, containerName, slugify_trim]

theorem runtimeBinaryName_edited (s : ContainerSession) :
    runtimeBinaryName (edited s).runtime = runtimeBinaryName s.runtime := by
  simp only [edited, runtimeBinaryName, trim_trim]

theorem mounts_edited : (edited s).mounts = s.mounts ↔ ∀ mount ∈ s.mounts, Item mount := by
  have hmounts : (edited s).mounts = semicolonList (fieldString ("; ".intercalate s.mounts)) := by simp only [edited]
  rw [hmounts, semicolonList_join_iff]

theorem env_edited : (edited s).env = s.env ↔ ∀ entry ∈ s.env, Item entry := by
  have henv : (edited s).env = semicolonList (fieldString ("; ".intercalate s.env)) := by simp only [edited]
  rw [henv, semicolonList_join_iff]

theorem launchesAlike_edited (h : Checked s) (hs : Unaltered s) : LaunchesAlike (edited s) s := by
  have hcommand := (sessionCommand_edited h).2 hs.command
  have hrootless : isRootless (edited s) = isRootless s := by
    rw [isRootless_edited, Bool.eq_iff_iff]
    exact ⟨isRootless_of_word, hs.presentation⟩
  have hchecked := checked_edited h hcommand hrootless
  have hnested := (usesNested_edited hcommand).2 hs.compositor
  have hhost := hostSocket_edited.2 hs.name
  have hruntime : normalizeContainerRuntime (edited s).runtime = normalizeContainerRuntime s.runtime := by
    simp only [edited, normalizeContainerRuntime, trim_trim]
  refine ⟨fun root => ?_, chooseDisplayAssignment_edited hrootless⟩
  have hcontainer : containerSocket root (edited s) = containerSocket root s := by
    have hsocket : (edited s).containerSocket = s.containerSocket := by simp only [edited]
    unfold containerSocket
    rw [hsocket, hhost, hruntime]
  have hargs : waypipeTuningArgs (edited s) (normalizeContainerRuntime s.runtime) =
      waypipeTuningArgs s (normalizeContainerRuntime s.runtime) := by
    simp only [edited, waypipeTuningArgs]
  unfold launchPlan
  rw [checked_iff.2 hchecked, checked_iff.2 h, hruntime, runtimeBinaryName_edited, containerName_edited, hcommand,
    hrootless, hnested, hhost, hcontainer, hargs, mounts_edited.2 hs.mounts, env_edited.2 hs.env]
  simp only [edited, configuredWaypipe]

/-- The profile of the dialog is launched as before exactly when it is unaltered. -/
theorem launchesAlike_iff (h : Checked s) (haudio : s.audio = true → trim s.runtime ∉ ["docker", "orb", "orbstack"]) :
    LaunchesAlike (edited s) s ↔ Unaltered s := by
  refine ⟨fun halike => ?_, launchesAlike_edited h⟩
  have hplan := halike.plan
  simp only [launchPlan, LaunchPlan.mk.injEq] at hplan
  have hhost : ∀ root, hostSocket root (edited s) = hostSocket root s := fun root => by
    obtain ⟨-, -, -, -, -, -, -, -, -, -, hhost, -⟩ := hplan root
    exact hhost
  obtain ⟨-, -, -, -, -, hcommand, hrootless, hnested, -, -, -, -, -, henv, hmounts, -⟩ := hplan ""
  refine ⟨haudio, fun hon => ?_, (sessionCommand_edited h).1 hcommand, (usesNested_edited hcommand).1 hnested,
    hostSocket_edited.1 hhost, mounts_edited.1 hmounts, env_edited.1 henv⟩
  rw [← isRootless_edited, hrootless, hon]

/-! ## What is stored -/

def WritableText (text : String) : Prop := ∀ c ∈ text.toList, writable c = true

instance (text : String) : Decidable (WritableText text) := decidable_of_iff (text.toList.all writable = true) List.all_eq_true

/-- The texts of the dialog, and of the fields it does not show, that validation does not look at. -/
def savedTexts (s : ContainerSession) : List String :=
  [profileWord s, commandField s] ++
    [s.app, s.socket, s.containerSocket, s.waypipePath, s.waypipeCompress].flatMap Option.toList ++
    s.runtimeArgs ++ s.mounts ++ s.env

variable {V : Type}

/-- When the profile of the dialog can take the place of the one that was opened: its texts can be written, its
container is that of no other profile, and the file stays within its limit. -/
structure Storable (a : Answers V) (sessions : List ContainerSession) (s : ContainerSession) : Prop where
  written : ∀ text ∈ savedTexts s, WritableText text
  alone : ∀ t ∈ sessions, t.id ≠ s.id → runtimeBinaryName t.runtime = runtimeBinaryName s.runtime →
    containerName t ≠ containerName s
  free : Activity.identityReservedByOther a.identities s.runtime (containerName s) (some s.id) = false
  small : a.tooLarge = false

theorem validateProfileName_edited {identities : Activity.Identities} {sessions : List ContainerSession} :
    validateProfileName identities (edited s) sessions (some s.id) = .ok () ↔
      (∀ t ∈ sessions, t.id ≠ s.id → runtimeBinaryName t.runtime = runtimeBinaryName s.runtime →
        containerName t ≠ containerName s) ∧
      Activity.identityReservedByOther identities s.runtime (containerName s) (some s.id) = false := by
  have hreserved : Activity.identityReservedByOther identities (edited s).runtime (containerName s) (some s.id) =
      Activity.identityReservedByOther identities s.runtime (containerName s) (some s.id) := by
    simp only [edited, Activity.identityReservedByOther, Launch.runtimeKey, trim_trim]
  unfold validateProfileName
  dsimp only
  rw [containerName_edited, runtimeBinaryName_edited, hreserved]
  split
  next t hfind =>
    refine iff_of_false (fun h => by cases h) fun h => ?_
    have hconflict := List.find?_some hfind
    simp only [ne_eq, Option.some.injEq, Bool.and_eq_true, decide_eq_true_eq] at hconflict
    obtain ⟨⟨hother, hruntime⟩, hname⟩ := hconflict
    exact h.1 t (List.mem_of_find?_eq_some hfind) hother hruntime hname
  next hfind =>
    have halone : ∀ t ∈ sessions, t.id ≠ s.id → runtimeBinaryName t.runtime = runtimeBinaryName s.runtime →
        containerName t ≠ containerName s := by
      intro t ht hother hruntime hname
      refine List.find?_eq_none.1 hfind t ht ?_
      simp only [ne_eq, Option.some.injEq, Bool.and_eq_true, decide_eq_true_eq]
      exact ⟨⟨hother, hruntime⟩, hname⟩
    rw [and_iff_right halone]
    split
    next hheld => exact iff_of_false (fun h => by cases h) (Bool.not_eq_false _ ▸ hheld)
    next hfree => exact iff_of_true rfl (Bool.eq_false_iff.2 hfree)

theorem threads_of_decodeSession {t : Entries V} (h : ProfileConfig.decodeSession t = some s) :
    ∀ n ∈ s.waypipeThreads, n < 2 ^ 63 := by
  have hread : ProfileConfig.optional t "waypipe_threads" ProfileConfig.Value.asUsize = some s.waypipeThreads := by
    unfold ProfileConfig.decodeSession at h
    obtain ⟨_, -, h⟩ := Option.bind_eq_some_iff.1 h
    obtain ⟨session, hsession, h⟩ := Option.bind_eq_some_iff.1 h
    have hsame : s.waypipeThreads = session.waypipeThreads := by rw [← Option.some.inj h]
    unfold ProfileConfig.decodeFields at hsession
    iterate 12 obtain ⟨_, -, hsession⟩ := Option.bind_eq_some_iff.1 hsession
    obtain ⟨threads, hthreads, hsession⟩ := Option.bind_eq_some_iff.1 hsession
    iterate 4 obtain ⟨_, -, hsession⟩ := Option.bind_eq_some_iff.1 hsession
    rw [hsame, ← Option.some.inj hsession]
    exact hthreads
  intro n hn
  rw [Option.mem_def.1 hn] at hread
  unfold ProfileConfig.optional at hread
  split at hread
  · cases hread
  next value hvalue =>
    rw [Option.map_eq_some_iff] at hread
    obtain ⟨m, hm, hmn⟩ := hread
    obtain rfl := Option.some.inj hmn
    unfold ProfileConfig.Value.asUsize at hm
    split at hm
    · split at hm
      next hlt =>
        obtain rfl := Option.some.inj hm
        exact hlt
      · cases hm
    · cases hm

theorem writableText_of_not_control {text : String} (h : ∀ c ∈ text.toList, ¬ isControl c = true) :
    WritableText text := by
  intro c hc
  have hcontrol := Bool.eq_false_iff.2 (h c hc)
  unfold isControl at hcontrol
  unfold writable
  simp only [Bool.or_eq_false_iff, Bool.and_eq_false_iff, decide_eq_false_iff_not] at hcontrol
  simp only [Bool.or_eq_true, Bool.and_eq_true, decide_eq_true_eq]
  omega

theorem writableText_normalizeProfile {word : String} (h : asciiLowercase (trim word) = word) :
    (∀ value, normalizeProfile word = some value → WritableText value) ↔ WritableText word := by
  have hwords : ∀ w ∈ desktopWords ++ ["app", "single", "single-app"] ++ shellWords, WritableText w := by decide
  unfold normalizeProfile
  rw [h]
  dsimp only
  split
  next hempty =>
    rw [hempty]
    exact iff_of_true nofun (by decide)
  simp only [← apply_ite some, Option.some.injEq, forall_eq']
  split
  next hdesktop =>
    exact iff_of_true (by decide) (hwords word (List.mem_append_left _ (List.mem_append_left _ hdesktop)))
  split
  next happ =>
    exact iff_of_true (by decide) (hwords word (List.mem_append_left _ (List.mem_append_right _ happ)))
  split
  next hshell => exact iff_of_true (by decide) (hwords word (List.mem_append_right _ hshell))
  · exact Iff.rfl

theorem writable_edited (h : Checked s) (hthreads : ∀ n ∈ s.waypipeThreads, n < 2 ^ 63)
    (hmounts : (edited s).mounts = s.mounts) (henv : (edited s).env = s.env) :
    Writable (edited s) ↔ ∀ text ∈ savedTexts s, WritableText text := by
  have hname : WritableText (edited s).name := by
    have hedited : (edited s).name = trim s.name := by simp only [edited]
    rw [hedited]
    exact writableText_of_not_control fun c hc => List.any_eq_false.1 h.nameText c (mem_trim hc)
  have hruntime : WritableText (edited s).runtime := by
    have hedited : (edited s).runtime = trim s.runtime := by simp only [edited]
    have hwords : ∀ w ∈ ["container", "apple", "apple-container", "docker", "orb", "orbstack"], WritableText w := by
      decide
    rw [hedited]
    exact hwords _ h.runtime
  have himage : WritableText (edited s).image := writableText_of_not_control fun c hc => by
    have htext := List.any_eq_false.1 h.imageText c hc
    rw [Bool.or_eq_true, not_or] at htext
    exact htext.2
  have hdisplay : ∀ value, (edited s).display = some value → WritableText value := by
    have hedited : (edited s).display = some (if requestedDisplay s = "" then "auto" else requestedDisplay s) := by
      simp only [edited]
    have hchecked := h.display
    unfold validateDisplaySlot at hchecked
    rw [displaySlot_eq] at hchecked
    generalize (if requestedDisplay s = "" then "auto" else requestedDisplay s) = display at hedited hchecked
    dsimp only at hchecked
    split at hchecked
    · cases hchecked
    next htext =>
      intro value hvalue
      obtain rfl := Option.some.inj (hedited.symm.trans hvalue)
      exact writableText_of_not_control fun c hc => List.any_eq_false.1 (Bool.eq_false_iff.2 htext) c hc
  have hpresentation : ∀ value, (edited s).presentation = some value → WritableText value := by
    have hedited : (edited s).presentation =
        some (if s.presentation.any (asciiLowercase · = "rootless") then "rootless" else "desktop") := by
      simp only [edited]
    intro value hvalue
    rw [← Option.some.inj (hedited.symm.trans hvalue)]
    split <;> decide
  have hprofile : (∀ value, (edited s).profile = some value → WritableText value) ↔ WritableText (profileWord s) := by
    rw [profile_edited]
    exact writableText_normalizeProfile (profileWord_fixed s)
  have hcommand : (∀ value, (edited s).command = some value → WritableText value) ↔ WritableText (commandField s) := by
    have hedited : (edited s).command = if commandField s = "" then none else some (commandField s) := by
      simp only [edited]
    rw [hedited]
    by_cases hempty : commandField s = ""
    · rw [if_pos hempty, hempty]
      exact iff_of_true nofun nofun
    · rw [if_neg hempty]
      simp only [Option.some.injEq, forall_eq']
  have hkept : (edited s).app = s.app ∧ (edited s).socket = s.socket ∧ (edited s).containerSocket = s.containerSocket ∧
      (edited s).waypipePath = s.waypipePath ∧ (edited s).waypipeCompress = s.waypipeCompress ∧
      (edited s).waypipeThreads = s.waypipeThreads ∧ (edited s).runtimeArgs = s.runtimeArgs := by
    simp only [edited, and_self]
  obtain ⟨happ, hsocket, hcontainer, hpath, hcompress, hcount, hargs⟩ := hkept
  show (∀ text ∈ texts (edited s), WritableText text) ∧ (∀ n ∈ (edited s).waypipeThreads, n < 2 ^ 63) ↔ _
  rw [hcount, and_iff_left hthreads]
  unfold texts savedTexts
  simp only [List.forall_mem_append, List.forall_mem_cons, List.not_mem_nil, false_implies, implies_true, and_true,
    true_and, List.flatMap_cons, List.flatMap_nil, Option.mem_toList, hname, hruntime, himage, hprofile, hcommand, happ,
    hsocket, hcontainer, hpath, hcompress, hargs, hmounts, henv, and_assoc]
  exact ⟨fun hall => hall.2.2, fun hall => ⟨hdisplay, hpresentation, hall⟩⟩

/-! ## What is loaded -/

/-- No text of the profile of the dialog is empty where a launch tells it from an absent one. -/
theorem launchPlan_blanksAbsent_edited (h : Checked s) (root : String) :
    launchPlan root (blanksAbsent (edited s)) = launchPlan root (edited s) := by
  have hidem : ∀ value : Option String, given (given value) = given value := fun value => by
    unfold given
    rw [Option.filter_filter]
    simp only [Bool.and_self]
  have hgiven : ∀ value : Option String, given value ≠ some "" := by
    intro value heq
    have hne := (Option.filter_eq_some_iff.1 heq).2
    exact absurd hne (by decide)
  have hsame : blanksAbsent (blanksAbsent (edited s)) = blanksAbsent (edited s) := by
    unfold blanksAbsent
    simp only [hidem]
  have hsocket : s.socket ≠ some "" := by
    intro heq
    have hrefused := isRefused_empty heq
    rw [h.socket] at hrefused
    cases hrefused
  have hcontainer : s.containerSocket ≠ some "" := by
    intro heq
    have hrefused := h.containerSocket
    rw [heq] at hrefused
    exact absurd hrefused (by decide)
  have hcommand : ¬ EmptyCommand (edited s) := by
    rintro (hempty | ⟨hnone, hniri, hshell, happ⟩)
    · simp only [edited] at hempty
      split at hempty
      · cases hempty
      next hne => exact hne (Option.some.inj hempty)
    · have hblank : commandField s = "" := by
        by_contra hne
        simp only [edited, if_neg hne] at hnone
        cases hnone
      have happ : s.app = some "" := by simpa only [edited] using happ
      cases hfield : s.command.or s.app with
      | none =>
        rw [happ] at hfield
        cases (Option.or_eq_none_iff.1 hfield).2
      | some text =>
        have hempty : trim text = "" := by rwa [commandField, hfield, Option.getD_some] at hblank
        obtain ⟨-, hprofile⟩ := profile_of_blank h hfield hempty
        rw [profile_edited_fixed hprofile] at hniri hshell
        exact hprofile.elim hniri hshell
  refine (launchPlan_eq_iff (sameText_of_blanksAbsent hsame)).2 ⟨iff_of_false ?_ hcommand, iff_of_false ?_ ?_,
    iff_of_false ?_ ?_⟩
  · rintro (hempty | ⟨-, -, -, hempty⟩)
    · exact hgiven _ hempty
    · exact hgiven _ hempty
  · exact hgiven _
  · simpa only [edited] using hsocket
  · rintro (hempty | ⟨-, hempty, -⟩)
    · exact hgiven _ hempty
    · exact hgiven _ hempty
  · rintro (hempty | ⟨-, hempty, -⟩)
    · exact hcontainer (by simpa only [edited] using hempty)
    · exact hsocket (by simpa only [edited] using hempty)

theorem launched_blanksAbsent_edited (s : ContainerSession) :
    launched (blanksAbsent (edited s)) = launched (edited s) := by
  have hdisplay : given (edited s).display = (edited s).display := by
    refine given_none fun hempty => ?_
    simp only [edited, Option.some.injEq] at hempty
    split at hempty
    · exact absurd hempty (by decide)
    next hne => exact hne hempty
  have hpresentation : given (edited s).presentation = (edited s).presentation := by
    refine given_none fun hempty => ?_
    simp only [edited, Option.some.injEq] at hempty
    split at hempty <;> exact absurd hempty (by decide)
  unfold launched blanksAbsent
  dsimp only
  rw [hdisplay, hpresentation]

theorem launchesAlike_loaded (h : Checked s) :
    LaunchesAlike (blanksAbsent (edited s)) s ↔ LaunchesAlike (edited s) s := by
  have hplan := launchPlan_blanksAbsent_edited h
  have hdisplay := launched_blanksAbsent_edited s
  constructor
  · rintro ⟨halike, hassigned⟩
    exact ⟨fun root => (hplan root).symm.trans (halike root), fun inUse => hdisplay ▸ hassigned inUse⟩
  · rintro ⟨halike, hassigned⟩
    exact ⟨fun root => (hplan root).trans (halike root), fun inUse => hdisplay.symm ▸ hassigned inUse⟩

section Saved

variable {a : Answers V} {file : ConfigFile V} {d : Document V} {sessions : List ContainerSession}

theorem id_edited (s : ContainerSession) : (edited s).id = s.id := by simp only [edited]

theorem threads_of_saved (h : Saved d sessions s) : ∀ n ∈ s.waypipeThreads, n < 2 ^ 63 := by
  obtain ⟨i, hi⟩ := List.getElem?_of_mem h.mem
  rw [Lib.getElem?_mapM (ProfileConfig.decode_rows h.decoded), Option.bind_eq_some_iff] at hi
  obtain ⟨t, -, hdecode⟩ := hi
  exact threads_of_decodeSession hdecode

variable [DecidableEq V]

theorem editUnchanged_ok (h : Checked s) : (editUnchanged a file s).2 = .ok s.id ↔
    (s.audio = true → trim s.runtime ∉ ["docker", "orb", "orbstack"]) ∧
      (replace a file s.id (edited s)).2 = .ok () := by
  unfold editUnchanged saveSessionDialog
  rw [dialogSession_unchanged h]
  by_cases haudio : s.audio = true ∧ trim s.runtime ∈ ["docker", "orb", "orbstack"]
  · rw [if_pos haudio]
    exact iff_of_false nofun fun hall => hall.1 haudio.1 haudio.2
  · rw [if_neg haudio, and_iff_right fun hon hruntime => haudio ⟨hon, hruntime⟩]
    dsimp only [Option.isSome_some]
    rw [if_pos rfl, id_edited]
    cases (replace a file s.id (edited s)).2 with
    | error e => exact iff_of_false nofun nofun
    | ok _ => exact iff_of_true rfl rfl

theorem editUnchanged_file (h : Checked s)
    (haudio : s.audio = true → trim s.runtime ∉ ["docker", "orb", "orbstack"]) :
    (editUnchanged a file s).1 = (replace a file s.id (edited s)).1 := by
  unfold editUnchanged saveSessionDialog
  rw [dialogSession_unchanged h, if_neg fun hall => haudio hall.1 hall.2]
  dsimp only [Option.isSome_some]
  rw [if_pos rfl, id_edited]

/-- What the profile of the dialog is stored for, if it is unaltered. -/
theorem replace_edited (hsaved : Saved d sessions s) (ha : a.Succeed) (h : Checked s)
    (hmounts : (edited s).mounts = s.mounts) (henv : (edited s).env = s.env) :
    (replace a (some (.document d)) s.id (edited s)).2 = .ok () ↔ Storable a sessions s := by
  rw [hsaved.replace_iff ha (id_edited s) (readAs_blanksAbsent _), sessionToToml_ok_iff, validateProfileName_edited,
    writable_edited h (threads_of_saved hsaved) hmounts henv]
  exact ⟨fun ⟨⟨halone, hfree⟩, hwritten, hsmall⟩ => ⟨hwritten, halone, hfree, hsmall⟩,
    fun hall => ⟨⟨hall.alone, hall.free⟩, hall.written, hall.small⟩⟩

theorem resolveSession_edited (hsaved : Saved d sessions s) (ha : a.Succeed) (h : Checked s)
    (hok : (editUnchanged a (some (.document d)) s).2 = .ok s.id) :
    resolveSession {} (editUnchanged a (some (.document d)) s).1 s.id = .ok (blanksAbsent (edited s)) := by
  obtain ⟨haudio, hreplaced⟩ := (editUnchanged_ok h).1 hok
  rw [editUnchanged_file h haudio]
  exact hsaved.resolveSession_replace ha (id_edited s) (id_edited s) (readAs_blanksAbsent _) hreplaced

theorem unaltered_of_keepsLaunch (hsaved : Saved d sessions s) (ha : a.Succeed) (h : Checked s)
    (hkeeps : KeepsLaunch a (some (.document d)) s) : Unaltered s ∧ Storable a sessions s := by
  obtain ⟨hok, t, hload, halike⟩ := hkeeps
  obtain ⟨haudio, hreplaced⟩ := (editUnchanged_ok h).1 hok
  obtain rfl := Except.ok.inj ((resolveSession_edited hsaved ha h hok).symm.trans hload)
  have hs := (launchesAlike_iff h haudio).1 ((launchesAlike_loaded h).1 halike)
  exact ⟨hs, (replace_edited hsaved ha h (mounts_edited.2 hs.mounts) (env_edited.2 hs.env)).1 hreplaced⟩

/-- A saved profile that validation accepts keeps its launch exactly when it is unaltered and can be stored. -/
theorem keepsLaunch_iff (hsaved : Saved d sessions s) (ha : a.Succeed) (h : validateSession s = .ok ()) :
    KeepsLaunch a (some (.document d)) s ↔ Unaltered s ∧ Storable a sessions s := by
  have hchecked := checked_iff.1 h
  refine ⟨unaltered_of_keepsLaunch hsaved ha hchecked, ?_⟩
  rintro ⟨hs, hstorable⟩
  have hreplaced := (replace_edited hsaved ha hchecked (mounts_edited.2 hs.mounts) (env_edited.2 hs.env)).2 hstorable
  have hok := (editUnchanged_ok hchecked).2 ⟨hs.audio, hreplaced⟩
  exact ⟨hok, _, resolveSession_edited hsaved ha hchecked hok,
    (launchesAlike_loaded hchecked).2 (launchesAlike_edited hchecked hs)⟩

end Saved

/-! ## A profile with a command, and one without -/

/-- A configuration of one profile, under an identifier. -/
def documentOf (id : ProfileId) (fields : Entries Empty) : Document Empty :=
  { session := .tables [fields.set "id" (.string id.toString)], others := ∅ }

theorem saved_documentOf {id : ProfileId} {fields : Entries Empty} (hid : id.isSaved = true)
    (hread : ProfileConfig.decodeSession fields = some s) :
    Saved (documentOf id fields) [{ s with id := id }] { s with id := id } := by
  have hrow : ProfileConfig.rowId (fields.set "id" (.string id.toString)) = some id :=
    ProfileConfig.rowId_of_get hid (Lib.Table.get_set_self _ _ _)
  have hdecoded : ProfileConfig.decode (documentOf id fields) = .ok [{ s with id := id }] := by
    unfold ProfileConfig.decode documentOf
    dsimp only
    rw [List.mapM_cons, ProfileConfig.decodeSession_set_id hread hid]
    rfl
  refine ⟨⟨⟨_, hdecoded⟩, ?_, ?_⟩, hdecoded, List.mem_cons_self⟩
  · intro t ht
    rw [List.mem_singleton.1 ht, hrow]
    rfl
  · show ([fields.set "id" (.string id.toString)].filterMap ProfileConfig.rowId).Nodup
    rw [List.filterMap_cons_some hrow]
    exact List.nodup_singleton _

def plainFields : Entries Empty := (Lib.Table.set ∅ "name" (.string "editor")).set "image" (.string "editor")

theorem saved_plain : Saved (documentOf plainProfile.id plainFields) [plainProfile] plainProfile :=
  saved_documentOf (by decide) (s := { plainProfile with id := .unsaved }) rfl

def niriProfile : ContainerSession := { plainProfile with command := some "niri" }

theorem saved_niri :
    Saved (documentOf niriProfile.id (plainFields.set "command" (.string "niri"))) [niriProfile] niriProfile :=
  saved_documentOf (by decide) (s := { niriProfile with id := .unsaved }) rfl

theorem succeed_default : ({} : Answers V).Succeed := ⟨rfl, rfl, rfl, rfl, rfl, rfl, rfl⟩

theorem keepsLaunch_iff_niri : validateSession niriProfile = .ok () ∧
    (KeepsLaunch {} (some (.document (documentOf niriProfile.id (plainFields.set "command" (.string "niri")))))
        niriProfile ↔
      Unaltered niriProfile ∧ Storable ({} : Answers Empty) [niriProfile] niriProfile) :=
  have h : validateSession niriProfile = .ok () := by decide +kernel
  ⟨h, keepsLaunch_iff saved_niri succeed_default h⟩

/-- A profile without a command and without a word is launched with a terminal, and then with a compositor. -/
theorem plainProfile_altered : Saved (documentOf plainProfile.id plainFields) [plainProfile] plainProfile ∧
    validateSession plainProfile = .ok () ∧
    ¬ KeepsLaunch {} (some (.document (documentOf plainProfile.id plainFields))) plainProfile := by
  have h : validateSession plainProfile = .ok () := by decide +kernel
  refine ⟨saved_plain, h, fun hkeeps => ?_⟩
  have hword : ¬ CommandKept plainProfile := by
    have hniri : profileWord plainProfile ∈ desktopWords ++ shellWords := by decide
    rintro (hprofile | hprofile | hother)
    · cases hprofile
    · cases hprofile
    · exact hother hniri
  exact hword (unaltered_of_keepsLaunch saved_plain succeed_default (checked_iff.1 h) hkeeps).1.command

end CocoaWay.Sessions
