import Mathlib.Data.List.Induction
import BLEBridge.AppWebLogs
import BLEBridge.Lib.Rotation
import BLEBridge.Lib.Runs
import BLEBridge.Memmap
/-!
# What the log keeps

When no file operation fails, the two files are the two newest generations of
everything appended, and the download returns them one after the other.
-/
open Lib

namespace BLEBridge

/-- A call of `app_log`: the uptime and the formatted message. -/
abbrev LogCall := UInt32 × Bytes

def LogCall.exec (s : AppLog) (c : LogCall) : AppLog := appLog .healthy c.1 c.2 s

/-- The record of a call. -/
def LogCall.record (c : LogCall) : Bytes := logLine c.1 c.2

/-! ## Records -/

theorem logLine_spec (uptimeMs : UInt32) (message : Bytes) :
    (logLine uptimeMs message).length ≤ 255 ∧ (logLine uptimeMs message).getLast? = some 10 := by
  unfold logLine
  dsimp only
  generalize cstr _ = line
  refine ⟨?_, List.getLast?_concat⟩
  rw [List.length_append, List.length_singleton, List.length_take]
  unfold SIZEOF_LOG_LINE
  split <;> omega

example : LogCall.record (61005, ascii "Boot") = ascii "[61.005] Boot\n" := by decide +kernel

/-! ## Appending -/

/-- The log is open at the end of `log.txt`. -/
structure LogOpen (s : AppLog) : Prop where
  ready : s.logReady = true
  isOpen : s.logFile.isOpen = true
  size : s.logFile.size = (fileText s.volume.log).length
  limit : (fileText s.volume.log).length ≤ APP_LOG_MAX_SIZE_BYTES

theorem LogOpen.of_volume {v : LogVolume} (h : (fileText v.log).length ≤ APP_LOG_MAX_SIZE_BYTES) :
    LogOpen ⟨v, ⟨true, (fileText v.log).length⟩, true⟩ := ⟨rfl, rfl, rfl, h⟩

theorem init_eq (s : AppLog) : appLogInit .healthy s =
    (true, ⟨{ s.volume with log := some (fileText s.volume.log) }, ⟨true, (fileText s.volume.log).length⟩,
      true⟩) := rfl

/-- The volume after a record. -/
def volumeAfter (line : Bytes) (v : LogVolume) : LogVolume :=
  if (fileText v.log).length + line.length ≤ APP_LOG_MAX_SIZE_BYTES then ⟨some (fileText v.log ++ line), v.log1⟩
  else ⟨some line, v.log⟩

/-- The record is appended, or it is the first of a new file. -/
theorem volumeAfter_cases (line : Bytes) (v : LogVolume) :
    ((fileText v.log).length + line.length ≤ APP_LOG_MAX_SIZE_BYTES ∧
      volumeAfter line v = ⟨some (fileText v.log ++ line), v.log1⟩) ∨
      (APP_LOG_MAX_SIZE_BYTES < (fileText v.log).length + line.length ∧
        volumeAfter line v = ⟨some line, v.log⟩) := by
  unfold volumeAfter
  split
  · rename_i hfits
    exact .inl ⟨hfits, rfl⟩
  · rename_i hfull
    exact .inr ⟨not_le.1 hfull, rfl⟩

theorem volumeAfter_limit {line : Bytes} (h : line.length ≤ 255) (v : LogVolume) :
    (fileText (volumeAfter line v).log).length ≤ APP_LOG_MAX_SIZE_BYTES := by
  rcases volumeAfter_cases line v with ⟨hfits, hv⟩ | ⟨-, hv⟩
  · rw [hv, fileText_some, List.length_append]
    exact hfits
  · have hsize : 255 ≤ APP_LOG_MAX_SIZE_BYTES := by decide
    rw [hv, fileText_some]
    exact h.trans hsize

theorem appLog_eq {s : AppLog} (h : LogOpen s) (uptimeMs : UInt32) (message : Bytes) :
    appLog .healthy uptimeMs message s =
      ⟨volumeAfter (logLine uptimeMs message) s.volume,
        ⟨true, (fileText (volumeAfter (logLine uptimeMs message) s.volume).log).length⟩, true⟩ := by
  obtain ⟨⟨log, log1⟩, ⟨isOpen, size⟩, logReady⟩ := s
  obtain ⟨hready, hopen, hsize, -⟩ := h
  dsimp only at hready hopen hsize
  subst hready hopen hsize
  unfold appLog appLogRotateIfNeeded volumeAfter
  dsimp only
  generalize logLine uptimeMs message = line
  by_cases hfits : (fileText log).length + line.length ≤ APP_LOG_MAX_SIZE_BYTES
  · rw [if_pos hfits, if_pos hfits]
    rfl
  · rw [if_neg hfits, if_neg hfits]
    rfl

/-- The volume before and what has been appended to it. -/
def history (v : LogVolume) (calls : List LogCall) : List Bytes :=
  [fileText v.log1, fileText v.log] ++ calls.map LogCall.record

/-- After these calls on the volume. -/
structure Kept (v : LogVolume) (calls : List LogCall) (s : AppLog) : Prop where
  isOpen : LogOpen s
  kept : Generations APP_LOG_MAX_SIZE_BYTES (history v calls) (fileText s.volume.log1) (fileText s.volume.log)
  rotated : s.volume.log1 = v.log1 ∧ fileText s.volume.log = fileText v.log ++
    (calls.map LogCall.record).flatten ∨
    (fileText s.volume.log1).length ≤ APP_LOG_MAX_SIZE_BYTES

variable {v : LogVolume} {calls : List LogCall} {s : AppLog}

theorem kept_init (h : (fileText v.log).length ≤ APP_LOG_MAX_SIZE_BYTES) (logFile : LogFil) (logReady : Bool) :
    Kept v [] (appLogInit .healthy ⟨v, logFile, logReady⟩).2 := by
  rw [init_eq]
  refine ⟨⟨rfl, rfl, rfl, h⟩, ?_, .inl ⟨rfl, ?_⟩⟩
  · exact .init _ _ _
  · exact (List.append_nil _).symm

/-- One call of `app_log`. -/
theorem Kept.step (h : Kept v calls s) (c : LogCall) : Kept v (calls ++ [c]) (c.exec s) := by
  have hhistory : history v (calls ++ [c]) = history v calls ++ [c.record] := by
    unfold history
    rw [List.map_append, List.append_assoc]
    rfl
  have hline : c.record.length ≤ 255 := (logLine_spec c.1 c.2).1
  have hexec : c.exec s = ⟨volumeAfter c.record s.volume,
      ⟨true, (fileText (volumeAfter c.record s.volume).log).length⟩, true⟩ :=
    appLog_eq h.isOpen c.1 c.2
  rw [hexec]
  refine ⟨.of_volume (volumeAfter_limit hline _), ?_, ?_⟩
  · rw [hhistory]
    dsimp only
    rcases volumeAfter_cases c.record s.volume with ⟨-, hv⟩ | ⟨hfull, hv⟩
    · rw [hv]
      exact h.kept.append c.record
    · rw [hv]
      exact h.kept.rotate hfull
  · dsimp only
    rcases volumeAfter_cases c.record s.volume with ⟨-, hv⟩ | ⟨-, hv⟩
    · rw [hv]
      rcases h.rotated with ⟨h1, hlog⟩ | h1
      · refine .inl ⟨h1, ?_⟩
        rw [List.map_append, List.flatten_append, ← List.append_assoc, ← hlog, List.map_singleton,
          List.flatten_singleton]
        rfl
      · exact .inr h1
    · rw [hv]
      exact .inr h.isOpen.limit

theorem kept_run (h : (fileText v.log).length ≤ APP_LOG_MAX_SIZE_BYTES) (logFile : LogFil) (logReady : Bool)
    (calls : List LogCall) :
    Kept v calls (run LogCall.exec (appLogInit .healthy ⟨v, logFile, logReady⟩).2 calls) := by
  induction calls using List.reverseRecOn with
  | nil => exact kept_init h logFile logReady
  | append_singleton calls c ih =>
    rw [run_concat]
    exact ih.step c

/-! ## The download -/

def ReadFil.rest (f : ReadFil) : Bytes := f.content.drop f.position

/-- What is still to be read. -/
def AppWebLogStream.rest (stream : AppWebLogStream) : Bytes :=
  (stream.previousFile.map ReadFil.rest).getD [] ++ (stream.currentFile.map ReadFil.rest).getD []

/-- The previous file has been read as far as `previousRead` says. -/
structure StreamOk (s : FsFile × AppWebLogStream) : Prop where
  opened : s.1.pextension = true
  size : ∀ p, s.2.previousFile = some p → s.2.previousSize = p.content.length
  position : ∀ p, s.2.previousFile = some p → p.position = s.2.previousRead

/-- `fs_read_custom` with the buffer as its result. -/
def readLogs (s : FsFile × AppWebLogStream) (count : Int32) : Option Bytes × FsFile × AppWebLogStream :=
  fsReadCustom true count.toInt s.1 s.2

theorem readFile_eq (source : ReadFil) (count : UInt32) : appWebLogReadFile true source count =
    (some (source.rest.take count.toNat),
      { source with position := source.position + (source.rest.take count.toNat).length }) := rfl

theorem take_append_rest (l : Bytes) (n : Nat) : l = l.take n ++ l.drop (l.take n).length := by
  rcases Nat.le_total n l.length with h | h
  · rw [List.length_take_of_le h, List.take_append_drop]
  · rw [List.take_of_length_le h, List.drop_length, List.append_nil]

/-- A file after some of it has been read. -/
theorem rest_take (source : ReadFil) (n : Nat) :
    source.rest = source.rest.take n ++
      ReadFil.rest ⟨source.content, source.position + (source.rest.take n).length⟩ := by
  have h := take_append_rest source.rest n
  unfold ReadFil.rest at h ⊢
  rw [List.drop_drop] at h
  exact h

variable {file : FsFile} {stream : AppWebLogStream}

/-- A read when nothing is left of the previous file. -/
theorem readCurrent_spec (hok : StreamOk (file, stream))
    (hp : (stream.previousFile.map ReadFil.rest).getD [] = []) {count : UInt32} (hc : 0 < count.toNat) :
    StreamOk (readCurrent true count file stream).2 ∧
      (((readCurrent true count file stream).1 = none ∧ stream.rest = []) ∨
        ∃ piece, (readCurrent true count file stream).1 = some piece ∧ piece ≠ [] ∧
          stream.rest = piece ++ (readCurrent true count file stream).2.2.rest) := by
  unfold readCurrent AppWebLogStream.rest
  rw [hp, List.nil_append]
  cases hcurrent : stream.currentFile with
  | none => exact ⟨hok, .inl ⟨rfl, rfl⟩⟩
  | some current =>
    have hrest := rest_take current count.toNat
    rw [Option.map_some, Option.getD_some]
    dsimp only
    rw [readFile_eq]
    dsimp only
    cases hread : current.rest.take count.toNat with
    | nil =>
      refine ⟨⟨hok.opened, hok.size, hok.position⟩, .inl ⟨rfl, ?_⟩⟩
      rcases List.take_eq_nil_iff.1 hread with h | h
      · exact absurd h hc.ne'
      · exact h
    | cons b bytes =>
      refine ⟨⟨hok.opened, hok.size, hok.position⟩, .inr ⟨b :: bytes, rfl, List.cons_ne_nil _ _, ?_⟩⟩
      dsimp only
      rw [hp, List.nil_append, ← hread, Option.map_some, Option.getD_some]
      exact hrest

theorem length_rest (p : ReadFil) : p.rest.length = p.content.length - p.position := List.length_drop

/-- The count that `fs_read_custom` reads with. -/
def readCountOf (count : Int) : UInt32 :=
  if toUInt32 count > APP_WEB_LOG_READ_CHUNK then APP_WEB_LOG_READ_CHUNK else toUInt32 count

theorem readCountOf_pos {count : Int} (hc : 0 < count) (hint : count < 2 ^ 31) :
    0 < (readCountOf count).toNat := by
  have htoNat : (toUInt32 count).toNat = count.toNat := by
    unfold toUInt32
    rw [UInt32.toNat_ofNat']
    omega
  unfold readCountOf
  split
  · decide
  · omega

/-- A read with a positive count. -/
theorem fsReadCustom_spec (hok : StreamOk (file, stream)) {count : Int} (hc : 0 < count) (hint : count < 2 ^ 31) :
    StreamOk (fsReadCustom true count file stream).2 ∧
      (((fsReadCustom true count file stream).1 = none ∧ stream.rest = []) ∨
        ∃ piece, (fsReadCustom true count file stream).1 = some piece ∧ piece ≠ [] ∧
          stream.rest = piece ++ (fsReadCustom true count file stream).2.2.rest) := by
  have hopened : file.pextension = true := hok.opened
  have hpos := readCountOf_pos hc hint
  have hcount : (if toUInt32 count > APP_WEB_LOG_READ_CHUNK then APP_WEB_LOG_READ_CHUNK else toUInt32 count) =
      readCountOf count := rfl
  unfold fsReadCustom
  rw [if_neg (by rw [hopened]; simp; omega)]
  dsimp only
  rw [hcount]
  generalize readCountOf count = readCount at hpos
  cases hprevious : stream.previousFile with
  | none => exact readCurrent_spec hok (by rw [hprevious]; rfl) hpos
  | some previous =>
    have hsize : stream.previousSize = previous.content.length := hok.size previous hprevious
    have hposition : previous.position = stream.previousRead := hok.position previous hprevious
    have hlength := length_rest previous
    dsimp only
    split
    · -- something is left of the previous file, and that is what is read
      rename_i hmore
      have hless : 0 < (if readCount.toNat > stream.previousSize - stream.previousRead then
          UInt32.ofNat (stream.previousSize - stream.previousRead) else readCount).toNat := by
        have hlt := readCount.toNat_lt
        split
        · rw [UInt32.toNat_ofNat']
          omega
        · exact hpos
      generalize (if readCount.toNat > stream.previousSize - stream.previousRead then
        UInt32.ofNat (stream.previousSize - stream.previousRead) else readCount) = lessCount at hless
      have hrest := rest_take previous lessCount.toNat
      have hsome : previous.rest.take lessCount.toNat ≠ [] := by
        rw [ne_eq, List.take_eq_nil_iff, not_or]
        exact ⟨hless.ne', List.ne_nil_of_length_pos (by omega)⟩
      rw [readFile_eq]
      dsimp only
      cases hread : previous.rest.take lessCount.toNat with
      | nil => exact absurd hread hsome
      | cons b bytes =>
        rw [hread] at hrest
        refine ⟨⟨hopened, fun p hp => ?_, fun p hp => ?_⟩, .inr ⟨b :: bytes, rfl, List.cons_ne_nil _ _, ?_⟩⟩
        · rw [← Option.some.inj hp]
          exact hsize
        · rw [← Option.some.inj hp]
          exact congrArg (· + (b :: bytes).length) hposition
        · unfold AppWebLogStream.rest
          dsimp only
          rw [hprevious, Option.map_some, Option.getD_some, Option.map_some, Option.getD_some,
            ← List.append_assoc]
          exact congrArg (· ++ _) hrest
    · refine readCurrent_spec hok ?_ hpos
      rw [hprevious, Option.map_some, Option.getD_some]
      exact List.eq_nil_of_length_eq_zero (by omega)

/-- The stream just opened. -/
theorem open_eq (v : LogVolume) {stream : AppWebLogStream} (h : stream.inUse = false) :
    fsOpenCustom true v APP_WEB_LOGS_URI stream =
      (some ⟨toInt ((fileText v.log1).length + (fileText v.log).length), 0,
        FS_FILE_FLAGS_HEADER_PERSISTENT, true⟩,
        ⟨v.log1.map (⟨·, 0⟩), v.log.map (⟨·, 0⟩), (fileText v.log1).length, 0, true⟩) := by
  have hlength (file : Option Bytes) : ((openFil true file).map (·.content.length)).getD 0 =
      (fileText file).length := by
    cases file with
    | none => rfl
    | some content => rfl
  unfold fsOpenCustom
  rw [h, if_neg (by simp)]
  dsimp only
  rw [hlength, hlength]
  rfl

theorem toInt_eq {n : Nat} (h : n < 2 ^ 31) : toInt n = n := by
  unfold toInt
  rw [BitVec.toInt_ofNat', Int.bmod_eq_of_le] <;> omega

/-- The download of these files. -/
theorem download_spec (v : LogVolume) {stream : AppWebLogStream} (h : stream.inUse = false)
    (hlength : (fileText v.log1).length + (fileText v.log).length < 2 ^ 31) :
    ∃ file stream', fsOpenCustom true v APP_WEB_LOGS_URI stream = (some file, stream') ∧
      file.len = (fileText v.log1 ++ fileText v.log).length ∧
      ∀ counts : List Int32, (∀ c ∈ counts, 0 < c) →
        ((readAll readLogs (file, stream') counts).2 = true →
          (readAll readLogs (file, stream') counts).1 = fileText v.log1 ++ fileText v.log) ∧
        ((fileText v.log1 ++ fileText v.log).length < counts.length →
          (readAll readLogs (file, stream') counts).2 = true) := by
  refine ⟨_, _, open_eq v h, ?_, fun counts hcounts => ?_⟩
  · rw [List.length_append]
    exact toInt_eq hlength
  · have hrest : fileText v.log1 ++ fileText v.log =
        AppWebLogStream.rest ⟨v.log1.map (⟨·, 0⟩), v.log.map (⟨·, 0⟩), (fileText v.log1).length, 0, true⟩ := by
      obtain ⟨log, log1⟩ := v
      cases log <;> cases log1 <;> rfl
    have hread : ∀ s (c : Int32), StreamOk s → 0 < c → ReadStep readLogs (fun s => s.2.rest) s c :=
      fun s c hok hc =>
      (fsReadCustom_spec hok (Int32.lt_iff_toInt_lt.1 hc) c.toInt_lt).2
    have hkeep : ∀ s (c : Int32), StreamOk s → 0 < c → StreamOk (readLogs s c).2 := fun s c hok hc =>
      (fsReadCustom_spec hok (Int32.lt_iff_toInt_lt.1 hc) c.toInt_lt).1
    rw [hrest]
    refine readAll_spec hread hkeep (StreamOk.mk rfl (fun p hp => ?_) fun p hp => ?_) hcounts
    · obtain ⟨content, hlog1, rfl⟩ := Option.map_eq_some_iff.1 hp
      dsimp only
      rw [hlog1]
      rfl
    · obtain ⟨content, -, rfl⟩ := Option.map_eq_some_iff.1 hp
      rfl

/-- Whatever has been logged, the two files hold the newest of the records and what
was there before, each is within its limit, and the download returns both. Nothing is
lost unless more than one file is full, and then not the last record. -/
theorem log_keeps_newest (v : LogVolume) (hlog : (fileText v.log).length ≤ APP_LOG_MAX_SIZE_BYTES)
    (hvolume : (fileText v.log1).length ≤ STORAGE.length) (logFile : LogFil) (logReady : Bool)
    (calls : List LogCall) :
    let s := run LogCall.exec (appLogInit .healthy ⟨v, logFile, logReady⟩).2 calls
    let text := fileText s.volume.log1 ++ fileText s.volume.log
    (appLogInit .healthy ⟨v, logFile, logReady⟩).1 = true ∧
      (fileText s.volume.log).length ≤ APP_LOG_MAX_SIZE_BYTES ∧
      (s.volume.log1 = v.log1 ∧ fileText s.volume.log = fileText v.log ++ (calls.map LogCall.record).flatten ∨
        (fileText s.volume.log1).length ≤ APP_LOG_MAX_SIZE_BYTES) ∧
      (∃ k, (k = 0 ∨ k ≤ calls.length + 1 ∧ APP_LOG_MAX_SIZE_BYTES < text.length) ∧
        text = (([fileText v.log1, fileText v.log] ++ calls.map LogCall.record).drop k).flatten) ∧
      (∀ c ∈ calls, c.record.length ≤ 255 ∧ c.record.getLast? = some 10) ∧
      ∀ stream : AppWebLogStream, stream.inUse = false →
        ∃ file stream', fsOpenCustom true s.volume APP_WEB_LOGS_URI stream = (some file, stream') ∧
          file.len = text.length ∧
          ∀ counts : List Int32, (∀ c ∈ counts, 0 < c) →
            ((readAll readLogs (file, stream') counts).2 = true →
              (readAll readLogs (file, stream') counts).1 = text) ∧
            (text.length < counts.length → (readAll readLogs (file, stream') counts).2 = true) := by
  have h := kept_run hlog logFile logReady calls
  dsimp only
  generalize run LogCall.exec (appLogInit .healthy ⟨v, logFile, logReady⟩).2 calls = s at h
  refine ⟨congrArg Prod.fst (init_eq _), h.isOpen.limit, h.rotated, ?_, fun c _ => logLine_spec c.1 c.2,
    fun stream hs => ?_⟩
  · obtain ⟨k, hk, htext⟩ := h.kept.suffix
    refine ⟨k, hk.imp_right fun ⟨hlt, hfull⟩ => ⟨?_, hfull⟩, htext⟩
    simp only [history, List.length_append, List.length_cons, List.length_nil, List.length_map] at hlt
    omega
  refine download_spec s.volume hs ?_
  have hlimit := h.isOpen.limit
  have hmax : APP_LOG_MAX_SIZE_BYTES = 49152 := rfl
  have hstorage : STORAGE.length = 131072 := rfl
  rcases h.rotated with ⟨h1, -⟩ | h1
  · rw [h1]
    omega
  · omega

/-! A log that is almost full, and two records. -/

def fullLog : LogVolume := ⟨some (List.replicate 49150 10), some (ascii "old\n")⟩

def twoCalls : List LogCall := [(1500, ascii "Boot"), (61005, ascii "Done")]

/-- The first record goes to a new file, and the older file is lost. -/
theorem fullLog_rotates :
    (run LogCall.exec (appLogInit .healthy ⟨fullLog, ⟨false, 0⟩, false⟩).2 twoCalls).volume =
      ⟨some (ascii "[1.500] Boot\n[61.005] Done\n"), fullLog.log⟩ := by
  have hlength : (fileText fullLog.log).length = 49150 := List.length_replicate
  have hmax : APP_LOG_MAX_SIZE_BYTES = 49152 := rfl
  have hboot : logLine 1500 (ascii "Boot") = ascii "[1.500] Boot\n" := by decide +kernel
  have hdone : logLine 61005 (ascii "Done") = ascii "[61.005] Done\n" := by decide +kernel
  have hopen := (kept_init (v := fullLog) (by omega) ⟨false, 0⟩ false).isOpen
  have hinit : (appLogInit .healthy ⟨fullLog, ⟨false, 0⟩, false⟩).2.volume = fullLog := rfl
  have hfirst : volumeAfter (ascii "[1.500] Boot\n") fullLog = ⟨some (ascii "[1.500] Boot\n"), fullLog.log⟩ :=
    if_neg (by rw [hlength, hmax]; decide)
  have hsecond : volumeAfter (ascii "[61.005] Done\n") ⟨some (ascii "[1.500] Boot\n"), fullLog.log⟩ =
      ⟨some (ascii "[1.500] Boot\n[61.005] Done\n"), fullLog.log⟩ := if_pos (by decide +kernel)
  generalize (appLogInit .healthy ⟨fullLog, ⟨false, 0⟩, false⟩).2 = s at hopen hinit
  have hrun : run LogCall.exec s twoCalls =
      appLog .healthy 61005 (ascii "Done") (appLog .healthy 1500 (ascii "Boot") s) := rfl
  rw [hrun, appLog_eq hopen, hinit, hboot, hfirst, appLog_eq (.of_volume (by decide +kernel)), hdone, hsecond]

/-- Only the text of the older file is lost. -/
theorem log_keeps_newest_rotated :
    let s := run LogCall.exec (appLogInit .healthy ⟨fullLog, ⟨false, 0⟩, false⟩).2 twoCalls
    let text := fileText fullLog.log ++ ascii "[1.500] Boot\n[61.005] Done\n"
    s.volume = ⟨some (ascii "[1.500] Boot\n[61.005] Done\n"), fullLog.log⟩ ∧
      (fileText s.volume.log).length ≤ APP_LOG_MAX_SIZE_BYTES ∧
      (∃ k, (k = 0 ∨ k ≤ 3 ∧ APP_LOG_MAX_SIZE_BYTES < text.length) ∧
        text = (([ascii "old\n", fileText fullLog.log] ++ twoCalls.map LogCall.record).drop k).flatten) ∧
      ∀ stream : AppWebLogStream, stream.inUse = false →
        ∃ file stream', fsOpenCustom true s.volume APP_WEB_LOGS_URI stream = (some file, stream') ∧
          file.len = text.length ∧
          ∀ counts : List Int32, (∀ c ∈ counts, 0 < c) →
            ((readAll readLogs (file, stream') counts).2 = true →
              (readAll readLogs (file, stream') counts).1 = text) ∧
            (text.length < counts.length → (readAll readLogs (file, stream') counts).2 = true) := by
  have hlength : (fileText fullLog.log).length = 49150 := List.length_replicate
  have hmax : APP_LOG_MAX_SIZE_BYTES = 49152 := rfl
  have h := log_keeps_newest fullLog (by omega) (by decide) ⟨false, 0⟩ false twoCalls
  dsimp only at h ⊢
  rw [fullLog_rotates] at h ⊢
  obtain ⟨-, hlog, -, hkept, -, hdownload⟩ := h
  exact ⟨rfl, hlog, hkept, hdownload⟩

end BLEBridge
