import BLEBridge.Canonical
import BLEBridge.ConfigFile
/-!
# The configuration as a document

The text that a save writes is a document of five sections (`lines_flatten`).
When no text has a line break, every line of it reads back (`configItems_readBack`),
so `ini_gets` finds what the sections say (`iniGet_section`).
-/
open Lib

namespace BLEBridge

def networkFields (config : AppConfig) : List IniItem := [
  .pair (ascii "mode") (appConfigModeName config.mode),
  .pair (ascii "ssid") config.ssid.bytes,
  .pair (ascii "hostname") config.hostname.bytes,
  .pair (ascii "channel") (decimal config.channel.toNat),
  .pair (ascii "security") (appConfigSecurityName config.security),
  .pair (ascii "password") config.password.bytes,
  .pair (ascii "send_narodmon") (flag config.sendNarodmon)]

def macItems (p : CString APP_CONFIG_ALLOWED_MAC_LEN × Nat) : List IniItem :=
  [.pair (ascii "mac" ++ decimal (p.2 + 1)) p.1.bytes]

def measurementsFields (config : AppConfig) : List IniItem := [
  .pair (ascii "retention_seconds") (decimal config.measurementRetentionSeconds.toNat),
  .pair (ascii "max_count") (decimal config.measurementMaxCount.toNat)]

def onewireFields (config : AppConfig) : List IniItem := [
  .pair (ascii "poll_interval_seconds") (decimal config.onewirePollIntervalSeconds.toNat),
  .pair (ascii "gpio2_enabled") (flag config.onewireGpio2Enabled),
  .pair (ascii "gpio3_enabled") (flag config.onewireGpio3Enabled)]

def mqttFields (config : AppConfig) : List IniItem := [
  .pair (ascii "enabled") (flag config.mqtt.enabled),
  .pair (ascii "host") config.mqtt.host.bytes,
  .pair (ascii "port") (decimal config.mqtt.port.toNat),
  .pair (ascii "interval_seconds") (decimal config.mqtt.intervalSeconds.toNat),
  .pair (ascii "username") config.mqtt.username.bytes,
  .pair (ascii "password") config.mqtt.password.bytes]

def nameItems (p : AppConfigDeviceName × Nat) : List IniItem := [
  .pair (ascii "id" ++ decimal (p.2 + 1)) (decimal p.1.deviceId.toNat),
  .pair (ascii "name" ++ decimal (p.2 + 1)) p.1.name.bytes]

/-- A blank line. -/
def blank : IniItem := .comment []

def networkSection (config : AppConfig) : IniSection :=
  ⟨ascii "network", networkFields config ++ config.allowedMacs.zipIdx.flatMap macItems ++ [blank]⟩

def measurementsSection (config : AppConfig) : IniSection :=
  ⟨ascii "measurements", measurementsFields config ++ [blank]⟩

def onewireSection (config : AppConfig) : IniSection := ⟨ascii "onewire", onewireFields config ++ [blank]⟩

def mqttSection (config : AppConfig) : IniSection := ⟨ascii "mqtt", mqttFields config ++ [blank]⟩

def namesSection (config : AppConfig) : IniSection := ⟨ascii "names", config.deviceNames.zipIdx.flatMap nameItems⟩

def configSections (config : AppConfig) : List IniSection :=
  [networkSection config, measurementsSection config, onewireSection config, mqttSection config,
    namesSection config]

/-- The lines that a save writes. -/
def configItems (config : AppConfig) : List IniItem :=
  networkComments.map .comment ++ (configSections config).flatMap IniSection.items

/-! ## The text -/

theorem networkLines_eq (config : AppConfig) :
    networkLines config = render (networkComments.map IniItem.comment ++ .header (ascii "network") ::
      networkFields config) := by
  have hcomments : networkComments.map (IniItem.line ∘ IniItem.comment) = networkComments := List.map_id _
  rw [networkLines, render, List.map_append, List.map_map, hcomments]
  refine congrArg (fun lines => unlines (networkComments ++ lines)) ?_
  unfold networkFields
  repeat rw [ascii_ofList]
  rfl

theorem macLines_eq (p : CString APP_CONFIG_ALLOWED_MAC_LEN × Nat) : macLines p = render (macItems p) := by
  simp only [macLines, render, macItems, List.map_cons, List.map_nil, IniItem.line, List.append_assoc]
  repeat rw [ascii_ofList]
  rfl

theorem measurementsLines_eq (config : AppConfig) :
    measurementsLines config = render (blank :: .header (ascii "measurements") :: measurementsFields config) := by
  unfold measurementsLines measurementsFields
  repeat rw [ascii_ofList]
  rfl

theorem onewireLines_eq (config : AppConfig) :
    onewireLines config = render (blank :: .header (ascii "onewire") :: onewireFields config) := by
  unfold onewireLines onewireFields
  repeat rw [ascii_ofList]
  rfl

theorem mqttLines_eq (config : AppConfig) :
    mqttLines config = render (blank :: .header (ascii "mqtt") :: mqttFields config) := by
  unfold mqttLines mqttFields
  repeat rw [ascii_ofList]
  rfl

theorem namesLines_eq : namesLines = render [blank, .header (ascii "names")] := by
  unfold namesLines
  repeat rw [ascii_ofList]
  rfl

theorem nameLines_eq (p : AppConfigDeviceName × Nat) : nameLines p = render (nameItems p) := by
  simp only [nameLines, render, nameItems, List.map_cons, List.map_nil, IniItem.line, List.append_assoc]
  repeat rw [ascii_ofList]
  rfl

theorem lines_flatten (config : AppConfig) : (appConfigLines config).flatten = render (configItems config) := by
  have hmacs : (config.allowedMacs.zipIdx.map macLines).flatten =
      render (config.allowedMacs.zipIdx.flatMap macItems) := by
    rw [render_flatMap, funext macLines_eq]
  have hnames : (config.deviceNames.zipIdx.map nameLines).flatten =
      render (config.deviceNames.zipIdx.flatMap nameItems) := by
    rw [render_flatMap, funext nameLines_eq]
  simp only [appConfigLines, List.cons_append, List.flatten_cons, List.flatten_append, hmacs, hnames,
    networkLines_eq,
    measurementsLines_eq, onewireLines_eq, mqttLines_eq, namesLines_eq, ← render_append]
  simp [configItems, configSections, IniSection.items, networkSection, measurementsSection, onewireSection,
    mqttSection,
    namesSection]

/-! ## Lines that read back as themselves -/

/-- A key of the configuration file. -/
def cleanKey (key : Bytes) : Bool :=
  key ≠ [] && key.length ≤ 64 && key.all fun b => 48 ≤ b && b ≠ 59 && b ≠ 61 && b ≠ 91

theorem cleanKey_iff (key : Bytes) :
    cleanKey key = true ↔ key ≠ [] ∧ key.length ≤ 64 ∧ ∀ b ∈ key, 48 ≤ b ∧ b ≠ 59 ∧ b ≠ 61 ∧ b ≠ 91 := by
  simp [cleanKey, and_assoc]

theorem not_isspace_of_le {b : UInt8} (h : 48 ≤ b) : isspace b = false := by
  simp only [isspace, decide_eq_false_iff_not]
  simp only [UInt8.le_iff_toNat_le, ← UInt8.toNat_inj] at h ⊢
  simp at h ⊢
  omega

theorem plain_of_le {s : Bytes} (h : ∀ b ∈ s, 48 ≤ b) : PlainText s where
  trimmed := ⟨
    (trimLeft_eq_self_iff s).2 fun b hb => not_isspace_of_le (h b (List.mem_of_mem_head? hb)),
    (trimRight_eq_self_iff s).2 fun b hb => not_isspace_of_le (h b (List.mem_of_mem_getLast? hb))⟩
  printable b hb := UInt8.le_trans (by decide) (h b hb)

theorem plainKey_of_clean {key : Bytes} (h : cleanKey key = true) : PlainKey key := by
  obtain ⟨hne, -, hb⟩ := (cleanKey_iff key).1 h
  refine ⟨hne, (plain_of_le fun b h => (hb b h).1).trimmed, fun h61 => (hb 61 h61).2.2.1 rfl, fun b hh => ?_⟩
  obtain ⟨h48, h59, -, h91⟩ := hb b (List.mem_of_mem_head? hh)
  exact ⟨h59, fun h35 => absurd (h35 ▸ h48) (by decide), h91⟩

theorem cleanItem_of_printable {item : IniItem}
    (hplain : item.Plain) (hshort : item.line.length < SIZEOF_LINE - 1)
    (hname : ∀ name, item = .header name → name.length ≤ SIZEOF_CURRENT_SECTION - 1)
    (hp : ∀ b ∈ item.line, 0x20 ≤ b) : CleanItem item where
  plain := hplain
  short := hshort
  no_nul h := absurd (hp 0 h) (by decide)
  no_newline h := absurd (hp 10 h) (by decide)
  no_return h := absurd (hp 13 h) (by decide)
  name_short := hname

theorem pairLine_short {key value : Bytes} (hk : cleanKey key = true) (hl : value.length ≤ 253) :
    (IniItem.pair key value).line.length < SIZEOF_LINE - 1 := by
  obtain ⟨-, hkl, -⟩ := (cleanKey_iff key).1 hk
  have hs : SIZEOF_LINE = 320 := rfl
  simp only [IniItem.line, List.length_append, List.length_cons]
  omega

theorem pairLine_not_mem {key value : Bytes} {b : UInt8} (hk : cleanKey key = true) (hb : b < 48)
    (h : b ∉ value) : b ∉ (IniItem.pair key value).line := by
  obtain ⟨-, -, hkey⟩ := (cleanKey_iff key).1 hk
  intro hm
  rcases List.mem_append.1 hm with hm | hm
  · exact UInt8.not_lt.2 (hkey b hm).1 hb
  · rcases List.mem_cons.1 hm with rfl | hm
    · exact absurd hb (by decide)
    · exact h hm

theorem cleanItem_value {key value : Bytes} (hk : cleanKey key = true) (ht : Trimmed value) (h0 : 0 ∉ value)
    (h : OneLine value) (hl : value.length ≤ 253) : CleanItem (.pair key value) where
  plain := ⟨plainKey_of_clean hk, ht⟩
  short := pairLine_short hk hl
  no_nul := pairLine_not_mem hk (by decide) h0
  no_newline := pairLine_not_mem hk (by decide) h.1
  no_return := pairLine_not_mem hk (by decide) h.2
  name_short _ h := by cases h

theorem cleanItem_pair {key value : Bytes} (hk : cleanKey key = true) (hv : PlainText value)
    (hl : value.length ≤ 253) : CleanItem (.pair key value) :=
  cleanItem_value hk hv.trimmed (fun h0 => absurd (hv.printable 0 h0) (by decide))
    (oneLine_of_printable hv.printable) hl

/-- A text that is read back without the white space around it. -/
theorem readsBack_text {cap : Nat} {key : Bytes} (hk : cleanKey key = true) (text : CString cap)
    (h : OneLine text.bytes) (hcap : cap - 1 ≤ 253) : ReadsBack (.pair key text.bytes) where
  read := by
    have hs := trim_sublist text.bytes
    exact cleanItem_value hk (trimmed_trim _) (fun h0 => text.noNul (hs.subset h0))
      ⟨fun h10 => h.1 (hs.subset h10), fun h13 => h.2 (hs.subset h13)⟩ ((hs.length_le.trans text.fits).trans hcap)
  short := pairLine_short hk (text.fits.trans hcap)
  no_nul := pairLine_not_mem hk (by decide) text.noNul
  no_newline := pairLine_not_mem hk (by decide) h.1
  no_return := pairLine_not_mem hk (by decide) h.2

theorem cleanKey_numbered {key : Bytes} (hk : cleanKey key = true) (hl : key.length ≤ 61) {n : Nat}
    (hn : n < 1000) : cleanKey (key ++ decimal n) = true := by
  obtain ⟨hne, -, hb⟩ := (cleanKey_iff key).1 hk
  have hd : (decimal n).length ≤ 3 := decimal_length_le (by omega) (by omega)
  refine (cleanKey_iff _).2 ⟨fun h => hne (List.append_eq_nil_iff.1 h).1, by rw [List.length_append]; omega,
    fun b hm => ?_⟩
  rcases List.mem_append.1 hm with hm | hm
  · exact hb b hm
  · obtain ⟨h48, h57⟩ := of_decide_eq_true (isdigit_decimal n b hm)
    exact ⟨h48, fun h => absurd (h ▸ h57) (by decide), fun h => absurd (h ▸ h57) (by decide),
      fun h => absurd (h ▸ h57) (by decide)⟩

theorem plain_decimal (n : Nat) : PlainText (decimal n) :=
  plain_of_le fun b hb => (of_decide_eq_true (isdigit_decimal n b hb)).1

theorem plain_literal {s : Bytes} (h : s.all (48 ≤ ·) = true) : PlainText s :=
  plain_of_le fun b hb => of_decide_eq_true (List.all_eq_true.1 h b hb)

theorem plain_modeName (mode : AppWifiMode) : PlainText (appConfigModeName mode) :=
  plain_literal (by cases mode <;> rfl)

theorem plain_securityName (security : AppWifiSecurity) : PlainText (appConfigSecurityName security) :=
  plain_literal (by cases security <;> rfl)

/-- A comment, or a blank line. -/
def cleanComment (text : Bytes) : Bool :=
  text.length < 319 && text.all (0x20 ≤ ·) && (text = [] || text.head? = some 59)

theorem cleanItem_comment {text : Bytes} (h : cleanComment text = true) : CleanItem (.comment text) := by
  simp only [cleanComment, Bool.and_eq_true, Bool.or_eq_true, decide_eq_true_eq, List.all_eq_true] at h
  obtain ⟨⟨hl, hp⟩, hhead⟩ := h
  refine cleanItem_of_printable (fun b hb => ?_) hl (fun _ h => by cases h) hp
  rcases hhead with rfl | hhead
  · cases hb
  · obtain ⟨rest, rfl⟩ := List.head?_eq_some_iff.1 hhead
    have hleft : trimLeft (59 :: rest) = 59 :: rest := (trimLeft_eq_self_iff _).2 fun c hc => by
      rw [← Option.some.inj hc]; rfl
    rw [hleft] at hb
    -- what is left starts as the text does
    obtain ⟨kept, hkept⟩ := List.head?_eq_some_iff.1 hb
    have hpre : trimRight (59 :: rest) <+: 59 :: rest := List.rdropWhile_prefix _ _
    rw [hkept] at hpre
    exact .inl (List.cons_prefix_cons.1 hpre).1

theorem comments_clean : ∀ item ∈ networkComments.map IniItem.comment, CleanItem item := by
  have hall : networkComments.all cleanComment = true := by
    unfold networkComments
    repeat rw [ascii_ofList]
    rfl
  intro item hi
  obtain ⟨text, ht, rfl⟩ := List.mem_map.1 hi
  exact cleanItem_comment (List.all_eq_true.1 hall text ht)

def cleanName (name : Bytes) : Bool := name.length ≤ 63 && name.all fun b => 48 ≤ b && b ≠ 93

theorem cleanItem_header {name : Bytes} (h : cleanName name = true) : CleanItem (.header name) := by
  simp only [cleanName, Bool.and_eq_true, decide_eq_true_eq, List.all_eq_true] at h
  obtain ⟨hl, hb⟩ := h
  have hs : SIZEOF_LINE = 320 := rfl
  have hplain : PlainText name := plain_of_le fun b hm => (hb b hm).1
  refine cleanItem_of_printable ⟨hplain.trimmed, fun h93 => (hb 93 h93).2 rfl⟩ ?_ (fun n hn => ?_) fun b hm => ?_
  · simp only [IniItem.line, List.length_cons, List.length_append, List.length_nil]
    omega
  · injection hn with hn
    exact hn ▸ hl
  · simp only [IniItem.line, List.mem_cons, List.mem_append, List.not_mem_nil, or_false] at hm
    rcases hm with rfl | hm | rfl
    · decide
    · exact hplain.printable b hm
    · decide

/-! Each section's lines. -/

theorem length_decimal_le {n : Nat} (h : n < 2 ^ 32) : (decimal n).length ≤ 253 :=
  (decimal_length_le (by omega) (show n < 10 ^ 10 by omega)).trans (by omega)

section
variable {config : AppConfig}

theorem cleanItem_decimal {key : Bytes} (hk : cleanKey key = true) {n : Nat} (h : n < 2 ^ 32) :
    CleanItem (.pair key (decimal n)) :=
  cleanItem_pair hk (plain_decimal n) (length_decimal_le h)

theorem cleanItem_flag {key : Bytes} (hk : cleanKey key = true) (b : Bool) : CleanItem (.pair key (flag b)) :=
  cleanItem_decimal hk (by split <;> omega)

theorem networkFields_readBack (h : Storable config) : ∀ item ∈ networkFields config, ReadsBack item := by
  have hm : (appConfigModeName config.mode).length ≤ 253 := by cases config.mode <;> exact of_decide_eq_true rfl
  have hs : (appConfigSecurityName config.security).length ≤ 253 := by
    cases config.security <;> exact of_decide_eq_true rfl
  simp only [networkFields, List.forall_mem_cons]
  exact ⟨(cleanItem_pair rfl (plain_modeName _) hm).readsBack, readsBack_text rfl config.ssid h.ssid (by decide),
    readsBack_text rfl config.hostname h.hostname (by decide),
    (cleanItem_decimal rfl config.channel.toNat_lt).readsBack,
    (cleanItem_pair rfl (plain_securityName _) hs).readsBack,
    readsBack_text rfl config.password h.password (by decide),
    (cleanItem_flag rfl _).readsBack, by simp⟩

theorem macItems_readBack (h : Storable config) :
    ∀ item ∈ config.allowedMacs.zipIdx.flatMap macItems, ReadsBack item := by
  intro item hi
  obtain ⟨⟨mac, i⟩, hp, hitem⟩ := List.mem_flatMap.1 hi
  have hz := List.mem_zipIdx hp
  have hlen : config.allowedMacs.length ≤ 128 := h.macs_length
  have hmac : mac ∈ config.allowedMacs := List.fst_mem_of_mem_zipIdx hp
  rw [List.mem_singleton.1 hitem]
  exact (cleanItem_pair (cleanKey_numbered rfl (of_decide_eq_true rfl) (by omega)) (h.macs mac hmac).plain
    (mac.fits.trans (by decide))).readsBack

theorem measurementsFields_readBack : ∀ item ∈ measurementsFields config, ReadsBack item := by
  simp only [measurementsFields, List.forall_mem_cons]
  exact ⟨(cleanItem_decimal rfl config.measurementRetentionSeconds.toNat_lt).readsBack,
    (cleanItem_decimal rfl (config.measurementMaxCount.toNat_lt.trans (by omega))).readsBack, by simp⟩

theorem onewireFields_readBack : ∀ item ∈ onewireFields config, ReadsBack item := by
  simp only [onewireFields, List.forall_mem_cons]
  exact ⟨(cleanItem_decimal rfl config.onewirePollIntervalSeconds.toNat_lt).readsBack,
    (cleanItem_flag rfl _).readsBack,
    (cleanItem_flag rfl _).readsBack, by simp⟩

theorem mqttFields_readBack (h : Storable config) : ∀ item ∈ mqttFields config, ReadsBack item := by
  simp only [mqttFields, List.forall_mem_cons]
  exact ⟨(cleanItem_flag rfl _).readsBack, readsBack_text rfl config.mqtt.host h.mqttHost (by decide),
    (cleanItem_decimal rfl (config.mqtt.port.toNat_lt.trans (by omega))).readsBack,
    (cleanItem_decimal rfl config.mqtt.intervalSeconds.toNat_lt).readsBack,
    readsBack_text rfl config.mqtt.username h.mqttUsername (by decide),
    readsBack_text rfl config.mqtt.password h.mqttPassword (by decide), by simp⟩

theorem nameItems_readBack (h : Storable config) :
    ∀ item ∈ config.deviceNames.zipIdx.flatMap nameItems, ReadsBack item := by
  intro item hi
  obtain ⟨⟨entry, i⟩, hp, hitem⟩ := List.mem_flatMap.1 hi
  have hz := List.mem_zipIdx hp
  have hlen : config.deviceNames.length ≤ 128 := h.names_length
  have hentry : entry ∈ config.deviceNames := List.fst_mem_of_mem_zipIdx hp
  simp only [nameItems, List.mem_cons, List.not_mem_nil, or_false] at hitem
  rcases hitem with rfl | rfl
  · exact (cleanItem_decimal (cleanKey_numbered rfl (of_decide_eq_true rfl) (by omega))
      entry.deviceId.toNat_lt).readsBack
  · exact (cleanItem_pair (cleanKey_numbered rfl (of_decide_eq_true rfl) (by omega))
      (name_of_normalized (h.name entry hentry)).2 (entry.name.fits.trans (by decide))).readsBack

/-- Every line that a save writes reads back. -/
theorem configItems_readBack (h : Storable config) : ∀ item ∈ configItems config, ReadsBack item := by
  have hblank : ReadsBack blank := (cleanItem_comment rfl).readsBack
  have hheader {name : Bytes} (hn : cleanName name = true) : ReadsBack (.header name) :=
    (cleanItem_header hn).readsBack
  simp only [configItems, configSections, IniSection.items, networkSection, measurementsSection, onewireSection,
    mqttSection, namesSection, List.flatMap_cons, List.flatMap_nil, List.append_nil, List.forall_mem_append,
    List.forall_mem_cons]
  have hnil : ∀ item ∈ ([] : List IniItem), ReadsBack item := by simp
  exact ⟨fun item hi => (comments_clean item hi).readsBack,
    ⟨hheader rfl, ⟨networkFields_readBack h, macItems_readBack h⟩, hblank, hnil⟩,
    ⟨hheader rfl, measurementsFields_readBack, hblank, hnil⟩, ⟨hheader rfl, onewireFields_readBack, hblank, hnil⟩,
    ⟨hheader rfl, mqttFields_readBack h, hblank, hnil⟩, hheader rfl, nameItems_readBack h⟩

/-! ## What is found in it -/

theorem configSections_noHeader : ∀ s ∈ configSections config, NoHeader s.body := by
  have hmacs : NoHeader (config.allowedMacs.zipIdx.flatMap macItems) :=
    noHeader_flatMap fun p => by simp [NoHeader, macItems]
  have hnames : NoHeader (config.deviceNames.zipIdx.flatMap nameItems) :=
    noHeader_flatMap fun p => by simp [NoHeader, nameItems]
  simp only [configSections, List.forall_mem_cons, networkSection, measurementsSection, onewireSection,
    mqttSection,
    namesSection]
  refine ⟨?_, ?_, ?_, ?_, hnames, by simp⟩
  · exact noHeader_append (noHeader_append (by simp [NoHeader, networkFields]) hmacs) (by simp [NoHeader, blank])
  · simp [NoHeader, measurementsFields, blank]
  · simp [NoHeader, onewireFields, blank]
  · simp [NoHeader, mqttFields, blank]

/-- Reading a key of one of the sections. -/
theorem iniGet_section (h : Storable config) {s : IniSection}
    (hs : s ∈ configSections config) (key defValue : Bytes) (bufferSize : Nat) :
    iniGet s.name key defValue bufferSize (some (render (configItems config))) =
      .copy bufferSize (((lookup s.name key true s.body).map fun v => trimRight (trimLeft v)).getD defValue) := by
  have hnames : (configSections config).map IniSection.name =
    [ascii "network", ascii "measurements", ascii "onewire", ascii "mqtt", ascii "names"] := rfl
  have hnodup : ((configSections config).map IniSection.name).Nodup := by
    rw [hnames]
    repeat rw [ascii_ofList]
    decide
  have hname : s.name ≠ [] := fun hs0 => by
    have hmem : s.name ∈ (configSections config).map IniSection.name := List.mem_map_of_mem hs
    rw [hs0, hnames] at hmem
    exact absurd hmem (by decide)
  have hcomments : NoHeader (networkComments.map IniItem.comment) := by simp [NoHeader]
  rw [iniGet_items _ _ _ _ hname (configItems_readBack h), configItems, lookup_append,
    lookup_noHeader hcomments, Option.none_or,
    lookup_sections configSections_noHeader hnodup hs]

variable (config) (i : Nat)

theorem numbered_eq_iff (p : Bytes) (j : Nat) : p ++ decimal (j + 1) = p ++ decimal (i + 1) ↔ j = i := by
  rw [List.append_right_inj, decimal_injective.eq_iff, Nat.succ_inj]

theorem lookup_mac : lookup (ascii "network") (ascii "mac" ++ decimal (i + 1)) true (networkSection config).body =
    (config.allowedMacs[i]?).map CString.bytes := by
  have hmac : ∀ mac j, lookup (ascii "network") (ascii "mac" ++ decimal (i + 1)) true (macItems (mac, j)) =
      if j = i then some mac.bytes else none := by
    intro mac j
    simp only [macItems, lookup, true_and, numbered_eq_iff]
  have hblank : [blank].all (IniItem.avoids (ascii "mac")) = true := rfl
  have hfields : (networkFields config).all (IniItem.avoids (ascii "mac")) = true := rfl
  have hno : NoHeader (networkFields config) := by simp [NoHeader, networkFields]
  rw [networkSection, lookup_append, lookup_append, lookup_avoids hfields, lookup_avoids hblank,
    Option.none_or, Option.or_none,
    inSection_noHeader hno, lookup_numbered (fun p => by simp [NoHeader, macItems]) hmac,
    if_pos (Nat.zero_le _), Nat.sub_zero]

theorem lookup_id : lookup (ascii "names") (ascii "id" ++ decimal (i + 1)) true (namesSection config).body =
    (config.deviceNames[i]?).map fun entry => decimal entry.deviceId.toNat := by
  have hid : ∀ entry j, lookup (ascii "names") (ascii "id" ++ decimal (i + 1)) true (nameItems (entry, j)) =
      if j = i then some (decimal entry.deviceId.toNat) else none := by
    intro entry j
    have hne : ascii "name" ++ decimal (j + 1) ≠ ascii "id" ++ decimal (i + 1) :=
      ne_numbered (of_decide_eq_true rfl) _
    simp only [nameItems, lookup, true_and, numbered_eq_iff, if_neg hne]
  rw [namesSection, lookup_numbered (fun p => by simp [NoHeader, nameItems]) hid, if_pos (Nat.zero_le _),
    Nat.sub_zero]

theorem lookup_name : lookup (ascii "names") (ascii "name" ++ decimal (i + 1)) true (namesSection config).body =
    (config.deviceNames[i]?).map fun entry => entry.name.bytes := by
  have hname : ∀ entry j, lookup (ascii "names") (ascii "name" ++ decimal (i + 1)) true (nameItems (entry, j)) =
      if j = i then some entry.name.bytes else none := by
    intro entry j
    have hne : ascii "id" ++ decimal (j + 1) ≠ ascii "name" ++ decimal (i + 1) :=
      ne_numbered (of_decide_eq_true rfl) _
    simp only [nameItems, lookup, true_and, numbered_eq_iff, if_neg hne]
  rw [namesSection, lookup_numbered (fun p => by simp [NoHeader, nameItems]) hname, if_pos (Nat.zero_le _),
    Nat.sub_zero]

end

end BLEBridge
