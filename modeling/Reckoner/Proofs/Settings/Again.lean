import Mathlib.Logic.Function.Iterate
import Reckoner.Proofs.Settings.Saving

/-!
# Loading settings again

The first time the calculator starts it writes the file that it reads from the second time on.
Whether the two agree is a question about three parts, the search for a file, the writer and the
reader. They do: the initial settings are what the written file holds
(`Settings.load_written`), and in every other place nothing is written at all
(`Settings.storage_load`). So a place that has been loaded from once is one that loading no longer
changes, and however often settings are loaded, they are those of the first time.
-/

namespace Reckoner

open Settings

/-- **What is at a place after settings have been loaded from it** a number of times. -/
def Storage.afterLoading (loader : Loader) (storage : Storage) (times : ℕ) : Storage :=
  (fun place => (load loader place).storage)^[times] storage

variable (loader : Loader) (storage : Storage)

theorem Storage.afterLoading_succ (times : ℕ) : storage.afterLoading loader (times + 1)
    = (load loader (storage.afterLoading loader times)).storage :=
  Function.iterate_succ_apply' _ _ _

namespace Settings

/-- **Loading writes a file where nothing is**, and nowhere else. -/
theorem storage_load : (load loader storage).storage = storage
    ∨ storage = .missing ∧ (load loader storage).storage = .file initial.fileOctets := by
  cases storage with
  | missing => exact .inr ⟨rfl, rfl⟩
  | directory => exact .inl rfl
  | blocked => exact .inl rfl
  | file octets =>
    refine .inl ?_
    unfold load
    dsimp only
    split <;> rfl

/-- A place that has been loaded from is one that loading no longer changes. -/
theorem storage_load_storage_load :
    (load loader (load loader storage).storage).storage = (load loader storage).storage := by
  obtain h | ⟨rfl, h⟩ := storage_load loader storage
  · rw [h, h]
  · rw [h]
    exact (storage_load loader _).resolve_right nofun

variable {loader}

/-- The file that loading writes is read as the settings it was written from. -/
theorem load_written (hloader : loader.TakesPlain) : load loader (.file initial.fileOctets)
    = ⟨.ok initial, [logged .info], .file initial.fileOctets⟩ :=
  load_of_holdsSettings (initial.holdsSettings_fileOctets hloader (by decide))

/-- **A second loading** has the result of the first. -/
theorem result_load_storage_load (hloader : loader.TakesPlain) :
    (load loader (load loader storage).storage).result = (load loader storage).result := by
  obtain h | ⟨rfl, h⟩ := storage_load loader storage
  · rw [h]
  · rw [h, load_written hloader]
    rfl

variable (loader)

/-- **Loading settings again gives the same settings**, or the same mistake, however often it is
done, by any loader that takes plain members as they are. Whatever the loader does, nothing is
changed that the first time has not changed, and all that is ever changed is that a file with the
initial settings comes to be where nothing was and a file could be created; a file that is there
stays as it is. -/
theorem load_again :
    (loader.TakesPlain → ∀ times,
      (load loader (storage.afterLoading loader times)).result = (load loader storage).result)
    ∧ (∀ times,
      (load loader (storage.afterLoading loader times)).storage = (load loader storage).storage)
    ∧ (∀ times, storage.afterLoading loader times = storage
      ∨ storage = .missing
        ∧ storage.afterLoading loader times = .file initial.fileOctets) := by
  have hstorage (times : ℕ) : (load loader (storage.afterLoading loader times)).storage
      = (load loader storage).storage := by
    induction times with
    | zero => rfl
    | succ times ih =>
      -- the place of the next loading is the one that this loading leaves behind
      rw [storage.afterLoading_succ]
      exact (storage_load_storage_load loader _).trans ih
  refine ⟨fun hloader times => ?_, hstorage, fun times => ?_⟩
  · induction times with
    | zero => rfl
    | succ times ih =>
      rw [storage.afterLoading_succ]
      exact (result_load_storage_load _ hloader).trans ih
  · cases times with
    | zero => exact .inl rfl
    | succ times =>
      rw [storage.afterLoading_succ, hstorage times]
      exact storage_load loader storage

/-- Where nothing was, the generous loader finds what it wrote itself. -/
theorem load_again_missing : Lax.loader.TakesPlain
    ∧ (load Lax.loader (Storage.missing.afterLoading Lax.loader 2)).result = .ok initial :=
  ⟨Lax.takesPlain_loader, (load_again Lax.loader .missing).1 Lax.takesPlain_loader 2⟩

end Settings

end Reckoner
