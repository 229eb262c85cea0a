import Taskboard.Command.Run

/-!
# Taskboard — what becomes of the files

A file of settings need not be there; one that is there must be readable, be a TOML document of
settings, and name nothing that triage cannot work with. A file of items must be there. Which of
these fails first decides what is reported; why a text is no document is in the words of the reader
that refuses it.

* `Workspace.Sets`, `Workspace.settingsFailure?` — the settings, and why there are none;
* `Workspace.Holds`, `Workspace.itemsFailure?` — the board, and why there is none;
* `QueryChoice.Chooses` — the query that a filter uses;
* `Loads` — what is loaded is as it should be, or the failure says why there is nothing;
* `Workspace.loads_settings`, `Workspace.loads_board` — both files are loaded in this way.
-/

namespace Taskboard

/-! ## Failures -/

/-- The failure of a value that is not there. -/
def failureOf {α : Type} : Except Failure α → Option Failure
  | .ok _ => none
  | .error f => some f

@[simp] theorem failureOf_ok {α : Type} (a : α) : failureOf (.ok a) = none := rfl

@[simp] theorem failureOf_error {α : Type} (f : Failure) :
    failureOf (.error f : Except Failure α) = some f := rfl

theorem failureOf_eq_some_iff {α : Type} {x : Except Failure α} {f : Failure} :
    failureOf x = some f ↔ x = .error f := by
  cases x with
  | ok a => exact ⟨nofun, nofun⟩
  | error g => rw [failureOf_error, Option.some.injEq, Except.error.injEq]

/-- A computation goes on only if its first part does not fail. -/
theorem failureOf_bind {α β : Type} {x : Except Failure α} {next : α → Except Failure β}
    {later : Option Failure} (h : ∀ a, x = .ok a → failureOf (next a) = later) :
    failureOf (x >>= next) = (failureOf x).or later := by
  cases x with
  | error f => rfl
  | ok a => exact h a rfl

/-- Output that only depends on a last part fails as that part does. -/
theorem failureOf_map {α β : Type} (x : Except Failure α) (write : α → β) :
    failureOf (x >>= fun a => pure (write a)) = failureOf x :=
  calc failureOf (x >>= fun a => pure (write a))
    _ = (failureOf x).or none := failureOf_bind fun _ _ => rfl
    _ = failureOf x := Option.or_none

theorem ok_of_bind {α β : Type} {x : Except Failure α} {next : α → Except Failure β} {b : β}
    (h : x >>= next = .ok b) : ∃ a, x = .ok a ∧ next a = .ok b := by
  cases x with
  | error f => cases h
  | ok a => exact ⟨a, rfl, h⟩

/-- Something of a kind is loaded, or there is a failure that says why not. -/
inductive Loads {α : Type} (kind : α → Prop) : Except Failure α → Option Failure → Prop
  | ok {a : α} (h : kind a) : Loads kind (.ok a) none
  | error (f : Failure) : Loads kind (.error f) (some f)

namespace Loads

variable {α : Type} {kind : α → Prop} {x : Except Failure α} {failure? : Option Failure}

theorem failureOf_eq (h : Loads kind x failure?) : failureOf x = failure? := by
  cases h with
  | ok h => rfl
  | error f => rfl

theorem of_ok {a : α} (h : Loads kind x failure?) (hOk : x = .ok a) : kind a := by
  cases h with
  | ok h => exact Except.ok.inj hOk ▸ h
  | error f => cases hOk

end Loads

namespace Workspace

/-! ## Settings -/

/-- The settings of a workspace: the standard ones if there is no file, and else those of the
document, if triage can work with them. -/
def Sets (w : Workspace) (settings : Settings) : Prop :=
  (w.settings = none ∧ settings = {}) ∨
    ∃ text entries, w.settings = some (.ok text) ∧ Toml.parse? text = some entries ∧
      Settings.ofToml? entries = some settings ∧ settings.triage.check = none

/-- Why a workspace has no settings. -/
def settingsFailure? (w : Workspace) : Option Failure :=
  match w.settings with
  | none => none
  | some (.error e) =>
    some ⟨.settingsMalformed, "Failed to read " ++ w.settingsPath, some e.message⟩
  | some (.ok text) =>
    match Toml.parse? text >>= Settings.ofToml? with
    | none =>
      some ⟨.settingsMalformed, "E1002: failed to parse " ++ w.settingsPath,
        some (w.wording.settings text)⟩
    | some settings => settings.triage.check.map fun bad =>
      ⟨.settingsMalformed, "Invalid settings in " ++ w.settingsPath ++ ": " ++ bad.message, none⟩

/-- **Settings are loaded** from a document that triage can work with. -/
theorem loads_settings (w : Workspace) : Loads w.Sets w.loadSettings w.settingsFailure? := by
  rw [loadSettings, Settings.load, settingsFailure?]
  cases hFile : w.settings with
  | none => exact .ok (.inl ⟨hFile, rfl⟩)
  | some contents =>
    cases contents with
    | error e => exact .error _
    | ok text =>
      simp only [loadToml]
      cases hRead : Toml.parse? text >>= Settings.ofToml? with
      | none => exact .error _
      | some settings =>
        obtain ⟨entries, hEntries, hSettings⟩ := Option.bind_eq_some_iff.mp hRead
        -- a document of settings may still ask for what triage cannot do
        simp only [bind, Except.bind]
        cases hCheck : settings.triage.check with
        | none => exact .ok (.inr ⟨text, entries, hFile, hEntries, hSettings, hCheck⟩)
        | some bad => exact .error _

/-! ## Items -/

/-- The board of a workspace: what its file of items lists. -/
def Holds (w : Workspace) (board : Board) : Prop :=
  ∃ text, w.items = .ok text ∧ Board.read? text = some board

/-- Why a workspace has no board, in a file at a path. -/
def itemsFailure? (w : Workspace) (path : String) : Option Failure :=
  match w.items with
  | .error e => some ⟨.itemsUnreadable, "cannot read " ++ path ++ ": " ++ e.message, none⟩
  | .ok text =>
    if (Board.read? text).isSome then none
    else some ⟨.itemsMalformed, path, some (w.wording.items text)⟩

/-- **A board is loaded** from a list of items. -/
theorem loads_board (w : Workspace) (path : String) :
    Loads w.Holds (w.loadBoard path) (w.itemsFailure? path) := by
  rw [loadBoard, itemsFailure?]
  cases hFile : w.items with
  | error e => exact .error _
  | ok text =>
    simp only
    cases hRead : Board.read? text with
    | none => exact .error _
    | some board => exact .ok ⟨text, hFile, hRead⟩

/-- A board that is not there is no fault of a query. -/
theorem code_of_itemsFailure? {w : Workspace} {path : String} {f : Failure}
    (h : w.itemsFailure? path = some f) : f.code ≠ .queryMalformed := by
  unfold itemsFailure? at h
  split at h
  · cases h
    exact nofun
  · split at h
    · cases h
    · cases h
      exact nofun

end Workspace

/-! ## Queries -/

/-- The query that a filter uses: the one that is given, that of a preset, or that of the settings,
where a missing one is the empty query. -/
def QueryChoice.Chooses (w : Workspace) (text : String) : QueryChoice → Prop
  | .query given => text = given
  | .preset id => ∃ saved, Query.Preset.find? id = some saved ∧ text = saved.query
  | .configured => ∃ settings, w.Sets settings ∧ text = settings.defaultQuery.getD ""

theorem QueryChoice.chooses_of_text {choice : QueryChoice} {w : Workspace} {text : String}
    (h : choice.text w = .ok text) : choice.Chooses w text := by
  cases choice with
  | query given => exact (Except.ok.inj h).symm
  | preset id =>
    rw [QueryChoice.text] at h
    cases hFind : Query.Preset.find? id with
    | none =>
      rw [hFind] at h
      cases h
    | some saved =>
      rw [hFind] at h
      exact ⟨saved, hFind, (Except.ok.inj h).symm⟩
  | configured =>
    obtain ⟨settings, hSettings, hText⟩ := ok_of_bind h
    exact ⟨settings, w.loads_settings.of_ok hSettings, (Except.ok.inj hText).symm⟩

end Taskboard
