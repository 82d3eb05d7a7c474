import RepoAtlas.Proofs.Files.Reading
import RepoAtlas.Settings.Store

/-!
# Loading settings

A file that cannot be read and a text that is no JSON are told to the user, and settings that were held stay.
JSON that is no object, or has something else for the patterns, ends loading with another fault.
-/

namespace RepoAtlas

/-- A file that its path leads straight down to is there and is read as its text, if its bytes are one. -/
theorem Files.readGuarded_of_straight? {root : FileNode} {path : String} {bytes : List UInt8}
    (hpath : absolute (Path.parts path) = path) (hfile : root.straight? (Path.parts path) = some (.file bytes)) :
    (node? root path).isSome = true ∧
      readGuarded [] root path = ((Text.fileText? bytes).map .ok).getD (.error (.unreadable path)) := by
  have hplace : realPlace? root path = some (Path.parts path) := realFrom_of_straight? linkLimit rfl hfile
  have hlookup : lookup root path = .ok (Path.parts path, .file bytes) := seek_of_straight? true linkLimit hfile
  have hfull : resolved root path = path := by simp only [resolved, hplace, hpath]
  cases htext : Text.fileText? bytes <;> simp [node?, readGuarded, readAnywhere, hfull, hlookup, htext]

namespace Settings

/-- A value that can be taken for settings: an object, with an object for the patterns if it has any. -/
def HoldsSettings (j : Json) : Prop :=
  ∃ ms, j = .obj ms ∧ ∀ p, ms.lookup patternsName = some p → ∃ ps, p = .obj ps

/-- Just the values that hold settings are taken for some. -/
theorem exists_ofJson_iff (j : Json) : (∃ v, ofJson j = .ok v) ↔ HoldsSettings j := by
  cases j with
  | obj ms =>
    have hpatterns : (∃ v, ofJson (.obj ms) = .ok v) ↔
        ∀ p, ms.lookup patternsName = some p → ∃ w, patternsOf p = .ok w := by
      rw [ofJson]
      cases ms.lookup patternsName with
      | none => simp [bind, Except.bind]
      | some p => cases hp : patternsOf p <;> simp [hp, bind, Except.bind]
    have hobj : ∀ p, (∃ w, patternsOf p = .ok w) ↔ ∃ ps, p = .obj ps := by
      intro p
      cases p <;> simp [patternsOf]
    simp only [hpatterns, hobj, HoldsSettings, Json.obj.injEq, exists_eq_left']
  | _ => simp [ofJson, HoldsSettings]

namespace Store

variable {s : Store} {files : FileNode} {text : String}

/-- Loading as a step of a store: a fault leaves the store as it is. -/
def loading (s : Store) (files : FileNode) : Store × Except StoreFault Bool :=
  match s.load files with
  | .ok (t, found) => (t, .ok found)
  | .error f => (s, .error f)

/-- New settings are held. -/
def Loads (s : Store) (files : FileNode) : Prop :=
  ∃ v, s.loading files = ({ s with held := some v }, .ok true)

/-- The user is told why no settings are loaded, and those that were held stay. -/
def Tells (s : Store) (files : FileNode) : Prop :=
  ∃ f message, s.loading files = (s, .error f) ∧ f.message? = some message

/-- What loading does, by what is in the file. -/
theorem loading_eq (hfile : (node? files s.file).isSome = true) :
    s.loading files =
      match Files.readGuarded [] files s.file with
      | .error f => (s, .error (.unloadable f.message))
      | .ok text =>
        match Json.parse? text with
        | none => (s, .error (.unloadable "the file holds no JSON"))
        | some j =>
          match ofJson j with
          | .ok v => ({ s with held := some v }, .ok true)
          | .error m => (s, .error (.misfit m)) := by
  have hthere : ¬(node? files s.file).isNone = true := by simp [Option.isSome_iff_ne_none.mp hfile]
  rw [loading, load, if_neg hthere]
  cases Files.readGuarded [] files s.file with
  | error f => rfl
  | ok text =>
    simp only [read]
    cases Json.parse? text with
    | none => rfl
    | some j =>
      dsimp only
      cases ofJson j <;> rfl

/-- JSON that is no settings is neither loaded nor told. -/
theorem not_loads_or_tells_of_misfit {m : SettingsMisfit} (h : s.loading files = (s, .error (.misfit m))) :
    ¬(s.Loads files ∨ s.Tells files) := by
  rintro (⟨v, hloads⟩ | ⟨f, message, htells, hmessage⟩)
  · cases (Prod.mk.inj (h.symm.trans hloads)).2
  · cases (Prod.mk.inj (h.symm.trans htells)).2
    cases hmessage

/-- Loading gives new settings, or tells why not and leaves what is held, exactly if the file holds no text,
no JSON or what can be taken for settings. Integers of more than 4300 digits and the depth of values, which
have no limit here, are left out. -/
theorem loads_or_tells_iff (s : Store) (files : FileNode) (hfile : (node? files s.file).isSome = true) :
    (s.Loads files ∨ s.Tells files ↔
      ∀ text, Files.readGuarded [] files s.file = .ok text →
        ∀ j, Json.parse? text = some j → HoldsSettings j) ∧
    (s.Loads files ∨ s.Tells files ∨ ∃ m, s.loading files = (s, .error (.misfit m))) := by
  have hloading := loading_eq hfile
  cases hread : Files.readGuarded [] files s.file with
  | error f =>
    simp only [hread] at hloading
    have htells : s.Tells files := ⟨_, _, hloading, rfl⟩
    simp [htells]
  | ok text =>
    cases hj : Json.parse? text with
    | none =>
      simp only [hread, hj] at hloading
      have htells : s.Tells files := ⟨_, _, hloading, rfl⟩
      simp [htells, hj]
    | some j =>
      simp only [Except.ok.injEq, forall_eq', hj, Option.some.injEq, ← exists_ofJson_iff]
      cases hv : ofJson j with
      | ok v =>
        simp only [hread, hj, hv] at hloading
        exact ⟨iff_of_true (Or.inl ⟨v, hloading⟩) ⟨v, rfl⟩, Or.inl ⟨v, hloading⟩⟩
      | error m =>
        simp only [hread, hj, hv] at hloading
        exact ⟨iff_of_false (not_loads_or_tells_of_misfit hloading) (fun ⟨_, h⟩ => nomatch h),
          Or.inr (Or.inr ⟨m, hloading⟩)⟩

/-- The store of a user whose file of settings holds some bytes, with settings held from before. -/
def sampleStore : Store := { home := "/h", held := some {} }

/-- The files of that user. -/
def sampleFiles (bytes : List UInt8) : FileNode :=
  .directory true [("h", .directory true [(".codewiki", .directory true [("config.json", .file bytes)])])]

/-- The file of that user is read as the text of its bytes. -/
theorem readGuarded_sampleFiles (bytes : List UInt8) :
    (node? (sampleFiles bytes) sampleStore.file).isSome = true ∧
      Files.readGuarded [] (sampleFiles bytes) sampleStore.file =
        ((Text.fileText? bytes).map .ok).getD (.error (.unreadable sampleStore.file)) :=
  Files.readGuarded_of_straight? (by decide +kernel) rfl

/-- Bytes that are not UTF-8 are told. -/
example : sampleStore.Tells (sampleFiles [0x22, 0xFF, 0x22]) := by
  obtain ⟨hfile, hread⟩ := readGuarded_sampleFiles [0x22, 0xFF, 0x22]
  have hloading := loading_eq hfile
  rw [hread] at hloading
  exact ⟨_, _, hloading, rfl⟩

/-- An object is loaded. -/
theorem empty_object_loaded :
    (node? (sampleFiles [0x7B, 0x7D]) sampleStore.file).isSome = true ∧
      (sampleStore.Loads (sampleFiles [0x7B, 0x7D]) ∨ sampleStore.Tells (sampleFiles [0x7B, 0x7D])) := by
  obtain ⟨hfile, hread⟩ := readGuarded_sampleFiles [0x7B, 0x7D]
  have htext : Text.fileText? [0x7B, 0x7D] = some "\x7b\x7d" := by decide +kernel
  have hobject : Json.parse? "\x7b\x7d" = some (.obj []) := by rfl
  rw [htext] at hread
  refine ⟨hfile, (loads_or_tells_iff _ _ hfile).1.mpr fun text hok j hj => ?_⟩
  cases hread.symm.trans hok
  cases hobject.symm.trans hj
  exact ⟨[], rfl, by simp⟩

/-- An array is JSON, but no settings: loading ends with a fault that the user is not told. -/
theorem empty_array_not_told :
    (node? (sampleFiles [0x5B, 0x5D]) sampleStore.file).isSome = true ∧
      ¬(sampleStore.Loads (sampleFiles [0x5B, 0x5D]) ∨ sampleStore.Tells (sampleFiles [0x5B, 0x5D])) := by
  obtain ⟨hfile, hread⟩ := readGuarded_sampleFiles [0x5B, 0x5D]
  have htext : Text.fileText? [0x5B, 0x5D] = some "[]" := by decide +kernel
  have harray : Json.parse? "[]" = some (.arr []) := by rfl
  refine ⟨hfile, not_loads_or_tells_of_misfit (m := .noMembers) ?_⟩
  rw [loading_eq hfile, hread, htext]
  simp only [Option.map_some, Option.getD_some, harray]
  rfl

end Store

end Settings

end RepoAtlas
