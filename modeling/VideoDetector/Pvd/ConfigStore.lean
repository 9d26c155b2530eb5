import Mathlib.Logic.Function.Basic
import VideoDetector.Lib.CString
import VideoDetector.Lib.Runs

/-!
# The stored configuration (`Pvd/configmanager.h`, `Pvd/configmanager.cpp`)

`FileDatabase` writes a string to a file at once and reads it byte by byte, each byte appended as a C string. A file that
cannot be opened for writing is written to all the same. `config_store_iff` says for which calls of `set_config` the
configuration is read as it was stored.
-/

namespace VideoDetector.Pvd
set_option autoImplicit false
open Lib

/-- The files that there are, and their bytes. -/
abbrev Files := String → Option (List UInt8)

/-- `fwrite` to a null pointer. -/
inductive StoreFault where
  | nullStream
  deriving DecidableEq

/-- What becomes of a file that is written: it is not opened, or at most so many bytes reach it. -/
inductive Writing where
  | fails
  | writes (n : Nat)
  deriving DecidableEq

/-- `FileDatabase::save_file`. -/
def saveFile (name : String) (writing : Writing) (data : List UInt8) (files : Files) : Except StoreFault Files :=
  match writing with
  | .fails => .error .nullStream
  | .writes n => .ok (Function.update files name (some (data.take n)))

/-- `FileDatabase::load_file`: whether the file was opened, and the data. -/
def loadFile (name : String) (files : Files) : Bool × List UInt8 :=
  match files name with
  | none => (false, [])
  | some bytes => (true, bytes.foldl (fun data b => data ++ cString [b, 0]) [])

/-- The file of the `ConfigManager`. -/
def configName : String := "res/config.json"

/-- A call of `set_config`. -/
structure SetConfig where
  cfg : List UInt8
  writing : Writing
  deriving DecidableEq

/-- `ConfigManager::set_config`. -/
def setConfig (files : Files) (call : SetConfig) : Except StoreFault Files := saveFile configName call.writing call.cfg files

/-- `FileDatabase::load` without an argument. -/
def loadConfig (files : Files) : List UInt8 := (loadFile configName files).2

/-- `ConfigManager::get_config`, where jsoncpp makes a value of a text. -/
def getConfig {J : Type} (parse : List UInt8 → J) (null : J) (files : Files) : J :=
  match loadFile configName files with
  | (true, data) => parse data
  | (false, _) => null

/-! ## What was stored -/

/-- The configuration of the last call that opened the file. -/
def lastStored (calls : List SetConfig) : Option (List UInt8) :=
  (calls.reverse.find? fun call => call.writing ≠ .fails).map SetConfig.cfg

/-- After each call the configuration that was stored last is read, and parsed. -/
def StoreRight {J : Type} (parse : List UInt8 → J) (null : J) (files : Files) (calls : List SetConfig) : Prop :=
  ∀ before, before <+: calls → ∃ files', before.foldlM setConfig files = .ok files' ∧
    ∀ s, lastStored before = some s → loadConfig files' = s ∧ getConfig parse null files' = parse s

/-- The file is opened, all bytes reach it, and none of them is zero. -/
structure Storable (call : SetConfig) : Prop where
  nonzero : (0 : UInt8) ∉ call.cfg
  written : ∃ n, call.writing = .writes n ∧ call.cfg.length ≤ n

theorem lastStored_snoc {calls : List SetConfig} {call : SetConfig} (opened : call.writing ≠ .fails) :
    lastStored (calls ++ [call]) = some call.cfg := by
  simp [lastStored, opened]

/-- A file is read without its zeros. -/
theorem loadFile_some {name : String} {files : Files} {bytes : List UInt8} (there : files name = some bytes) :
    loadFile name files = (true, bytes.filter (· != 0)) := by
  have each : ∀ data, bytes.foldl (fun data b => data ++ cString [b, 0]) data = data ++ bytes.filter (· != 0) := by
    clear there
    induction bytes with
    | nil => exact fun data => (List.append_nil data).symm
    | cons b bytes ih =>
      intro data
      rw [List.foldl_cons, ih, List.append_assoc]
      congr 1
      by_cases zero : b = 0 <;> simp [cString, zero]
  rw [loadFile, there]
  exact congrArg (Prod.mk true) (each [])

/-- What is read of a string after a call that opened the file. -/
theorem loadConfig_set {files : Files} {cfg : List UInt8} {n : Nat} :
    loadFile configName (Function.update files configName (some (cfg.take n))) = (true, (cfg.take n).filter (· != 0)) :=
  loadFile_some (Function.update_self _ _ _)

theorem take_filter_eq_iff {cfg : List UInt8} {n : Nat} :
    (cfg.take n).filter (· != 0) = cfg ↔ (0 : UInt8) ∉ cfg ∧ cfg.length ≤ n := by
  constructor
  · intro same
    have nonzero : (0 : UInt8) ∉ cfg := by
      rw [← same]
      simp
    refine ⟨nonzero, ?_⟩
    have short := (List.filter_sublist (p := (· != 0)) (l := cfg.take n)).length_le
    rw [same, List.length_take] at short
    omega
  · rintro ⟨nonzero, all⟩
    rw [List.take_of_length_le all, List.filter_eq_self]
    intro b member
    exact bne_iff_ne.mpr fun zero => nonzero (zero ▸ member)

/-- A call after which its configuration is read. -/
theorem setConfig_iff (files : Files) (call : SetConfig) :
    (∃ files', setConfig files call = .ok files' ∧ loadFile configName files' = (true, call.cfg)) ↔ Storable call := by
  obtain ⟨cfg, writing⟩ := call
  cases writing with
  | fails =>
    refine iff_of_false ?_ fun storable => ?_
    · rintro ⟨files', done, _⟩
      cases done
    · obtain ⟨n, opened, _⟩ := storable.written
      cases opened
  | writes n =>
    constructor
    · rintro ⟨files', done, read⟩
      cases done
      rw [loadConfig_set, Prod.mk.injEq, take_filter_eq_iff] at read
      exact ⟨read.2.1, n, rfl, read.2.2⟩
    · rintro ⟨nonzero, n', opened, all⟩
      cases opened
      exact ⟨_, rfl, by rw [loadConfig_set, take_filter_eq_iff.mpr ⟨nonzero, all⟩]⟩

/-- A run of such calls. -/
theorem stored_run {files : Files} {calls : List SetConfig} (storable : ∀ call ∈ calls, Storable call) :
    ∃ files', calls.foldlM setConfig files = .ok files' ∧
      ∀ s, lastStored calls = some s → loadFile configName files' = (true, s) := by
  induction calls using List.reverseRecOn with
  | nil => exact ⟨files, rfl, fun s none => by cases none⟩
  | append_singleton before call ih =>
    obtain ⟨files₁, run, _⟩ := ih fun call member => storable call (List.mem_append_left _ member)
    have last := storable call (by simp)
    obtain ⟨files', done, read⟩ := (setConfig_iff files₁ call).mpr last
    refine ⟨files', foldlM_snoc_ok run done, fun s stored => ?_⟩
    obtain ⟨n, opened, _⟩ := last.written
    rw [lastStored_snoc (by rw [opened]; simp)] at stored
    cases stored
    exact read

/-- **The configuration store**: after every call of a run the last configuration is read as it was stored, exactly if every
call opens the file, writes all of its string and has no zero byte in it. -/
theorem config_store_iff {J : Type} (parse : List UInt8 → J) (null : J) (files : Files) (calls : List SetConfig) :
    StoreRight parse null files calls ↔ ∀ call ∈ calls, Storable call := by
  constructor
  · intro right call member
    obtain ⟨before, after, rfl⟩ := List.append_of_mem member
    obtain ⟨files', run, stored⟩ := right (before ++ [call]) ⟨after, by simp⟩
    obtain ⟨files₀, _, last⟩ := foldlM_append_ok run
    rw [List.foldlM_cons] at last
    obtain ⟨_, done, same⟩ := bind_ok last
    cases same
    rw [← setConfig_iff files₀]
    refine ⟨_, done, ?_⟩
    obtain ⟨cfg, writing⟩ := call
    cases writing with
    | fails => cases done
    | writes n =>
      have read := (stored _ (lastStored_snoc (by simp))).1
      cases done
      rw [loadConfig, loadConfig_set] at read
      rw [loadConfig_set]
      exact congrArg (Prod.mk true) read
  · rintro storable before ⟨after, rfl⟩
    obtain ⟨files', run, read⟩ := @stored_run files _ fun call member => storable call (List.mem_append_left _ member)
    refine ⟨files', run, fun s stored => ?_⟩
    rw [loadConfig, getConfig, read s stored]
    exact ⟨rfl, rfl⟩

/-- A zero byte is lost, and a file that cannot be opened ends the program. -/
theorem zeroByte_lost :
    loadConfig (Function.update (fun _ => none) configName (some [0x22, 0x00, 0x22])) = [0x22, 0x22] ∧
      ¬ StoreRight id [] (fun _ => none) [⟨[0x22, 0x00, 0x22], .writes 3⟩] ∧
      ¬ StoreRight id [] (fun _ => none) [⟨[0x7B, 0x7D], .writes 2⟩, ⟨[0x7B, 0x7D], .fails⟩] := by
  refine ⟨by decide, fun right => ?_, fun right => ?_⟩
  · obtain ⟨files', run, stored⟩ := right _ (List.prefix_refl _)
    cases run
    exact absurd (stored [0x22, 0x00, 0x22] rfl).1 (by decide)
  · obtain ⟨files', run, _⟩ := right _ (List.prefix_refl _)
    cases run

end VideoDetector.Pvd
