import BLEBridge.SettingsReload
import BLEBridge.UrlDecoding
/-!
# Texts of the settings form

The settings handler cuts a value to the size of its field before it decodes it. So
a text is stored as it was typed if its encoding fits the field (`FitsField`), which
may be three times as long as the text, and not otherwise (`settings_text_iff`).
-/
open Lib

namespace BLEBridge

/-! ## A cut encoding -/

/-- `e` fits in `room` bytes, or it is cut within an escaped percent sign at the end
where what is left reads the same. -/
inductive FitsField (room : Nat) : Bytes → Bytes → Prop
  | fits {e s : Bytes} (h : e.length ≤ room) : FitsField room e s
  | percent {e s : Bytes} (he : Encodes e s) (hroom : room = e.length + 1) :
      FitsField room (e ++ ascii "%25") (s ++ ascii "%")
  | percentTwo {e e' s : Bytes} (he : Encodes e s) (he' : Encodes e' (ascii "2")) (hroom : room = e.length + 2) :
      FitsField room (e ++ ascii "%25" ++ e') (s ++ ascii "%2")

theorem Encodes.append {e s e' s' : Bytes} (h : Encodes e s) (h' : Encodes e' s') :
    Encodes (e ++ e') (s ++ s') := by
  induction h with
  | nil => exact h'
  | itself hpercent hplus h ih => exact .itself hpercent hplus ih
  | plus h ih => exact .plus ih
  | escaped ha hb hvalue h ih => exact .escaped ha hb hvalue ih

theorem decodes_loop {text s : Bytes} (h : Decodes text s) : urlDecodeLoop text = s :=
  decodes_unique (urlDecodeLoop_decodes text) h

/-- A percent sign without two digits after it. -/
theorem decodes_percent : Decodes [37] [37] := .literal (by decide) (fun _ _ _ _ h => by cases h) .nil

theorem decodes_percent_digit {a : UInt8} (ha : isxdigit a = true) : Decodes [37, a] [37, a] := by
  refine .literal (by decide) (fun _ _ _ _ h => by cases h) (.literal ?_ (fun h37 => ?_) .nil)
  · rintro rfl
    exact absurd ha (by decide)
  · subst h37
    exact absurd ha (by decide)

/-- Where an encoding is cut: after it, between two bytes of the text, or within an
escape, of which one or two characters are left. -/
inductive CutAt (room : Nat) (e s : Bytes) : Prop
  | whole (h : e.length ≤ room)
  | between {e₁ e₂ s₁ s₂ : Bytes} (he : e = e₁ ++ e₂) (hs : s = s₁ ++ s₂) (h₁ : Encodes e₁ s₁) (hne : s₂ ≠ [])
      (hroom : e₁.length = room)
  | escape {e₁ e₂ s₁ s₂ : Bytes} {a b c : UInt8} (he : e = e₁ ++ 37 :: a :: b :: e₂) (hs : s = s₁ ++ c :: s₂)
      (h₁ : Encodes e₁ s₁)
      (h₂ : Encodes e₂ s₂) (ha : isxdigit a = true) (hb : isxdigit b = true)
        (hvalue : digitsValue 16 [a, b] = c.toNat)
      (hroom : e₁.length + 1 = room ∨ e₁.length + 2 = room)

theorem CutAt.cons {room : Nat} {e s u : Bytes} {c : UInt8}
    (hu : ∀ {e s}, Encodes e s → Encodes (u ++ e) (c :: s)) (h : CutAt room e s) :
    CutAt (u.length + room) (u ++ e) (c :: s) := by
  cases h with
  | whole h => exact .whole (by rw [List.length_append]; omega)
  | between he hs h₁ hne hroom =>
    subst he hs
    exact .between (List.append_assoc _ _ _).symm (List.cons_append).symm (hu h₁) hne
      (by rw [List.length_append, hroom])
  | escape he hs h₁ h₂ ha hb hvalue hroom =>
    subst he hs
    exact .escape (List.append_assoc _ _ _).symm (List.cons_append).symm (hu h₁) h₂ ha hb hvalue
      (by rw [List.length_append]; omega)

theorem cutAt {e s : Bytes} (h : Encodes e s) (room : Nat) : CutAt room e s := by
  induction h generalizing room with
  | nil => exact .whole (Nat.zero_le _)
  | @itself b e s hpercent hplus h ih =>
    match room with
    | 0 => exact .between (List.nil_append _).symm (List.nil_append _).symm .nil (List.cons_ne_nil _ _) rfl
    | room + 1 =>
      have hcut := (ih room).cons (u := [b]) fun h => .itself hpercent hplus h
      rwa [List.length_singleton, Nat.add_comm] at hcut
  | @plus e s h ih =>
    match room with
    | 0 => exact .between (List.nil_append _).symm (List.nil_append _).symm .nil (List.cons_ne_nil _ _) rfl
    | room + 1 =>
      have hcut := (ih room).cons (u := [43]) fun h => .plus h
      rwa [List.length_singleton, Nat.add_comm] at hcut
  | @escaped a b c e s ha hb hvalue h ih =>
    match room with
    | 0 => exact .between (List.nil_append _).symm (List.nil_append _).symm .nil (List.cons_ne_nil _ _) rfl
    | 1 => exact .escape (List.nil_append _).symm (List.nil_append _).symm .nil h ha hb hvalue (.inl rfl)
    | 2 => exact .escape (List.nil_append _).symm (List.nil_append _).symm .nil h ha hb hvalue (.inr rfl)
    | room + 3 =>
      have hcut := (ih room).cons (u := [37, a, b]) fun h => .escaped ha hb hvalue h
      have h3 : [37, a, b].length + room = room + 3 := Nat.add_comm _ _
      rwa [h3] at hcut

/-! ## What is decoded then -/

/-- A cut that reads the same. -/
theorem FitsField.decode {room : Nat} {e s : Bytes} (h : Encodes e s) (hf : FitsField room e s) :
    urlDecodeLoop (e.take room) = s := by
  cases hf with
  | fits hlen =>
    rw [List.take_of_length_le hlen]
    exact decodes_loop h.decodes
  | @percent e s he hroom =>
    have htake : (e ++ ascii "%25").take room = e ++ [37] := by
      rw [hroom, List.take_length_add_append]
      rfl
    rw [htake]
    exact decodes_loop (he.decodes_append decodes_percent)
  | @percentTwo e e' s he he' hroom =>
    have htake : (e ++ ascii "%25" ++ e').take room = e ++ [37, 50] := by
      rw [hroom, List.append_assoc, List.take_length_add_append]
      rfl
    rw [htake]
    exact decodes_loop (he.decodes_append (decodes_percent_digit (by decide)))

/-- An escaped percent sign. -/
theorem digits_percent {a b : UInt8} (ha : isxdigit a = true) (hb : isxdigit b = true)
    (h : digitsValue 16 [a, b] = 37) : a = 50 ∧ b = 53 := by
  obtain ⟨d, -, hd, hda⟩ := hexValue_digit ha
  obtain ⟨e, -, he, heb⟩ := hexValue_digit hb
  have hd16 : d.toNat < 16 := UInt8.lt_iff_toNat_lt.1 hd
  have he16 : e.toNat < 16 := UInt8.lt_iff_toNat_lt.1 he
  have hpair : digitsValue 16 [a, b] = 16 * digitsValue 16 [a] + digitsValue 16 [b] := by
    simp only [digitsValue, List.foldl_cons, List.foldl_nil]
    omega
  have hall : ∀ a : UInt8, isxdigit a = true → (digitsValue 16 [a] = 2 → a = 50) ∧
      (digitsValue 16 [a] = 5 → a = 53) := by
    decide +kernel
  exact ⟨(hall a ha).1 (by omega), (hall b hb).2 (by omega)⟩

theorem not_isspace_of_isxdigit {a : UInt8} (h : isxdigit a = true) : isspace a = false :=
  (isspace_of_isxdigit h).2

/-- Trimming leaves something of a text that does not start with white space. -/
theorem trim_ne_nil {b : UInt8} (hb : isspace b = false) (t : Bytes) : trimRight (trimLeft (b :: t)) ≠ [] := by
  have hleft : trimLeft (b :: t) = [] ++ b :: t := List.dropWhile_cons_of_neg (by simp [hb])
  rw [hleft, trimRight_append_cons hb]
  exact List.append_ne_nil_of_right_ne_nil _ (List.cons_ne_nil _ _)

theorem trimmed_of_ends {d : Bytes} (hhead : ∀ b, d.head? = some b → isspace b = false)
    (hlast : ∀ b, d.getLast? = some b → isspace b = false) :
    Trimmed d := ⟨(trimLeft_eq_self_iff d).2 hhead, (trimRight_eq_self_iff d).2 hlast⟩

theorem Encodes.eq_nil {e : Bytes} (h : Encodes e []) : e = [] := by cases h; rfl

/-- The start of a trimmed text, before a percent sign and what does not end in a space. -/
theorem trimmed_append {s₁ s₂ p : Bytes} (h : Trimmed (s₁ ++ s₂)) (hhead : p.head? = some 37)
    (hlast : ∀ b, p.getLast? = some b → isspace b = false) : Trimmed (s₁ ++ p) := by
  have hstart := (trimLeft_eq_self_iff _).1 h.left
  have hne : p ≠ [] := fun hnil => by rw [hnil] at hhead; cases hhead
  refine trimmed_of_ends (fun b hb => ?_) fun b hb => ?_
  · cases s₁ with
    | nil =>
      rw [List.nil_append, hhead] at hb
      rw [← Option.some.inj hb]
      rfl
    | cons b' t => exact hstart b hb
  · rw [List.getLast?_append_of_ne_nil _ hne] at hb
    exact hlast b hb

section
variable {room : Nat} {e s : Bytes} (h : Encodes e s) (ht : Trimmed s)
include h ht

/-- Of what a cut leaves, nothing is a NUL, and the start is as it was. -/
theorem cut_decoded (h0 : 0 ∉ s) : 0 ∉ urlDecodeLoop (e.take room) ∧
    ∀ b, (urlDecodeLoop (e.take room)).head? = some b → isspace b = false := by
  have hstart := (trimLeft_eq_self_iff s).1 ht.left
  cases cutAt h room with
  | whole hlen =>
    rw [List.take_of_length_le hlen, decodes_loop h.decodes]
    exact ⟨h0, hstart⟩
  | @between e₁ e₂ s₁ s₂ he hs h₁ hne hroom =>
    subst he hs
    rw [List.take_left' hroom, decodes_loop h₁.decodes]
    refine ⟨fun hm => h0 (List.mem_append_left _ hm), fun b hb => hstart b ?_⟩
    rw [List.head?_append, hb, Option.some_or]
  | @escape e₁ e₂ s₁ s₂ a b c he hs h₁ h₂ ha hb hvalue hroom =>
    subst he hs
    have hleft : ∀ p : Bytes, (p = [37] ∨ p = [37, a]) → 0 ∉ s₁ ++ p ∧ ∀ b, (s₁ ++ p).head? = some b →
        isspace b = false := by
      intro p hp
      have hp0 : 0 ∉ p := by
        rcases hp with rfl | rfl
        · decide
        · simp only [List.mem_cons, List.not_mem_nil, or_false, not_or]
          exact ⟨by decide, fun h => absurd (h ▸ ha) (by decide)⟩
      have hphead : p.head? = some 37 := by rcases hp with rfl | rfl <;> rfl
      refine ⟨fun hm => (List.mem_append.1 hm).elim (fun hm => h0 (List.mem_append_left _ hm)) hp0,
        fun b hb => ?_⟩
      cases s₁ with
      | nil =>
        rw [List.nil_append, hphead] at hb
        rw [← Option.some.inj hb]
        rfl
      | cons b' s₁ => exact hstart b hb
    rcases hroom with hroom | hroom
    · rw [← hroom, List.take_length_add_append, List.take_succ_cons, List.take_zero,
        decodes_loop (h₁.decodes_append decodes_percent)]
      exact hleft [37] (.inl rfl)
    · rw [← hroom, List.take_length_add_append, List.take_succ_cons, List.take_succ_cons, List.take_zero,
        decodes_loop (h₁.decodes_append (decodes_percent_digit ha))]
      exact hleft [37, a] (.inr rfl)

/-- What a cut leaves is the text only where the cut reads the same. -/
theorem cut_trim_iff : trimRight (trimLeft (urlDecodeLoop (e.take room))) = s ↔ FitsField room e s := by
  refine ⟨fun heq => ?_, fun hf => by rw [hf.decode h, ht.trim]⟩
  cases cutAt h room with
  | whole hlen => exact .fits hlen
  | @between e₁ e₂ s₁ s₂ he hs h₁ hne hroom =>
    subst he
    rw [List.take_left' hroom, decodes_loop h₁.decodes] at heq
    -- fewer bytes than the text has
    have hle := (trim_sublist s₁).length_le
    rw [heq, hs, List.length_append] at hle
    exact absurd (List.eq_nil_of_length_eq_zero (by omega)) hne
  | @escape e₁ e₂ s₁ s₂ a b c he hs h₁ h₂ ha hb hvalue hroom =>
    subst he
    rw [hs] at ht
    rcases hroom with hroom | hroom
    · have hlast : ∀ b, [(37 : UInt8)].getLast? = some b → isspace b = false :=
        fun b hb => Option.some.inj hb ▸ rfl
      rw [← hroom, List.take_length_add_append, List.take_succ_cons, List.take_zero,
        decodes_loop (h₁.decodes_append decodes_percent),
        (trimmed_append ht rfl hlast).trim, hs, List.append_cancel_left_eq] at heq
      injection heq with hc hs₂
      subst hc hs₂ hs
      obtain ⟨rfl, rfl⟩ := digits_percent ha hb hvalue
      rw [h₂.eq_nil]
      exact .percent h₁ hroom.symm
    · have hlast : ∀ b, [37, a].getLast? = some b → isspace b = false :=
        fun b hb => Option.some.inj hb ▸ not_isspace_of_isxdigit ha
      rw [← hroom, List.take_length_add_append, List.take_succ_cons, List.take_succ_cons, List.take_zero,
        decodes_loop (h₁.decodes_append (decodes_percent_digit ha)), (trimmed_append ht rfl hlast).trim, hs,
        List.append_cancel_left_eq] at heq
      injection heq with hc hs₂
      subst hc hs₂ hs
      obtain ⟨rfl, rfl⟩ := digits_percent ha hb hvalue
      have hsplit : e₁ ++ 37 :: 50 :: 53 :: e₂ = e₁ ++ ascii "%25" ++ e₂ :=
        (List.append_assoc e₁ (ascii "%25") e₂).symm
      rw [hsplit]
      exact .percentTwo h₁ h₂ hroom.symm

end

/-! ## The fields -/

/-- A text as it may be typed into a field. -/
structure FieldText (s : Bytes) : Prop where
  no_control : ∀ b ∈ s, ¬(b < 0x20 ∨ b = 0x7F)
  trimmed : Trimmed s
  ne_nil : s ≠ []

theorem FieldText.noNul {s : Bytes} (h : FieldText s) : 0 ∉ s := fun h0 => h.no_control 0 h0 (.inl (by decide))

theorem readText_bytes {cap : Nat} {e s : Bytes} (h : Encodes e s) (hs : FieldText s) :
    (readText cap e).bytes = urlDecodeLoop (e.take (cap - 1)) := by
  have hcopy : (CString.copy cap e).bytes = e.take (cap - 1) := by
    show (cstr e).take (cap - 1) = _
    rw [cstr_of_noNul (h.noNul hs.noNul)]
  have hlen := (urlDecodeLoop_decodes (e.take (cap - 1))).length_le
  rw [List.length_take] at hlen
  unfold readText appTextUrlDecode
  rw [hcopy]
  exact copy_bytes (cut_decoded h hs.trimmed hs.noNul).1 (by omega)

/-- A field after trimming. -/
theorem trim_readText_iff {cap : Nat} {e s : Bytes} (h : Encodes e s) (hs : FieldText s) :
    (appConfigTrim (readText cap e)).bytes = s ↔ FitsField (cap - 1) e s := by
  rw [trim_bytes, readText_bytes h hs]
  exact cut_trim_iff h hs.trimmed

theorem trim_readText_ne_nil {cap : Nat} (hcap : 2 ≤ cap) {e s : Bytes} (h : Encodes e s) (hs : FieldText s) :
    (appConfigTrim (readText cap e)).bytes ≠ [] := by
  rw [trim_bytes, readText_bytes h hs]
  have hhead : ∀ b, (urlDecodeLoop (e.take (cap - 1))).head? = some b → isspace b = false :=
    (cut_decoded h hs.trimmed hs.noNul).2
  cases hd : urlDecodeLoop (e.take (cap - 1)) with
  | cons b d =>
    rw [hd] at hhead
    exact trim_ne_nil (hhead b rfl) d
  | nil =>
    -- only an empty text decodes to nothing
    have hdec := urlDecodeLoop_decodes (e.take (cap - 1))
    rw [hd] at hdec
    have htake : e.take (cap - 1) = [] := by
      cases hdec' : e.take (cap - 1) with
      | nil => rfl
      | cons => rw [hdec'] at hdec; cases hdec
    rcases List.take_eq_nil_iff.1 htake with h0 | rfl
    · omega
    · cases h
      exact absurd rfl hs.ne_nil

/-- **When texts are stored as typed.** A settings request with encodings of a network
name, a host name and a password, answered as saved, leaves these three texts in use
exactly if each encoding fits its field. -/
theorem settings_text_iff {fs : FatFs} {nowMs : UInt32} {params : List CgiParam} {s : WebConfig}
    {ssid hostname password ssidValue hostnameValue passwordValue : Bytes}
    (hssid : FieldText ssid) (hhostname : FieldText hostname) (hpassword : FieldText password)
    (hssidValue : Encodes ssidValue ssid) (hhostnameValue : Encodes hostnameValue hostname)
    (hpasswordValue : Encodes passwordValue password)
    (hssidParam : appWebFindParamValue params (ascii "ssid") = some ssidValue)
    (hhostnameParam : appWebFindParamValue params (ascii "hostname") = some hostnameValue)
    (hpasswordParam : appWebFindParamValue params (ascii "password") = some passwordValue)
    (hsecurityParam : appWebFindParamValue params (ascii "security") = some (ascii "wpa2"))
    (hsaved : (appWebCgiSettingsHandler fs nowMs params s).1.success = true) :
    let runtime := (appWebCgiSettingsHandler fs nowMs params s).2.runtime
    (runtime.ssid.bytes = ssid ∧ runtime.hostname.bytes = hostname ∧ runtime.password.bytes = password) ↔
      FitsField 32 ssidValue ssid ∧ FitsField 63 hostnameValue hostname ∧
        FitsField 64 passwordValue password := by
  intro runtime
  obtain ⟨_, next, ⟨mqtt, -, hnext⟩, -, hruntime, -⟩ := (settings_answered fs nowMs params s).of_success hsaved
  have hrun : runtime = appConfigNormalize { settingsFields params s.runtime with mqtt := mqtt } :=
    hruntime.trans hnext
  -- A text that is not blank is not replaced by its default.
  have hfield {cap : Nat} (hcap : 2 ≤ cap) {name value text : Bytes} (current : CString cap) (default : Bytes)
    (ht : FieldText text)
      (hv : Encodes value text) (hp : appWebFindParamValue params name = some value) :
      (orDefault (appConfigTrim (textParam params name current)) default).bytes = text ↔
        FitsField (cap - 1) value text := by
    have htext : textParam params name current = readText cap value := by
      unfold textParam
      rw [hp]
    rw [htext, orDefault, if_neg (trim_readText_ne_nil hcap hv ht), trim_readText_iff hv ht]
  have hs : runtime.ssid.bytes = ssid ↔ FitsField 32 ssidValue ssid := by
    rw [hrun]
    exact hfield (by decide) s.runtime.ssid _ hssid hssidValue hssidParam
  have hh : runtime.hostname.bytes = hostname ↔ FitsField 63 hostnameValue hostname := by
    rw [hrun]
    exact hfield (by decide) s.runtime.hostname _ hhostname hhostnameValue hhostnameParam
  have hwpa2 : (settingsFields params s.runtime).security = .securityWpa2 := by
    have hvalue : (readText SIZEOF_VALUE (ascii "wpa2")).bytes = ascii "wpa2" := by decide +kernel
    unfold settingsFields
    dsimp only
    rw [hsecurityParam]
    exact if_pos hvalue
  -- The password is cleared for an open network only.
  have hpass : runtime.password = appConfigTrim (readText APP_CONFIG_PASSWORD_MAX_LEN passwordValue) := by
    have htext : textParam params (ascii "password") s.runtime.password =
        readText APP_CONFIG_PASSWORD_MAX_LEN passwordValue := by
      unfold textParam
      rw [hpasswordParam]
    rw [hrun, ← htext]
    exact if_neg (by rw [hwpa2]; decide)
  rw [hs, hh, hpass, trim_readText_iff hpasswordValue hpassword]
  rfl

/-! Two requests on the first start. -/

/-- A request for a protected network. -/
def networkParams (ssidValue : Bytes) : List CgiParam := [
  (ascii "ssid", some ssidValue), (ascii "hostname", some (ascii "blebridge")),
  (ascii "security", some (ascii "wpa2")),
  (ascii "password", some (ascii "password"))]

def networkConfig (ssid : Bytes) : AppConfig :=
  { appConfigDefaults with
    ssid := .copy _ ssid
    security := .securityWpa2
    password := .copy _ (ascii "password")
    onewireGpio2Enabled := false
    onewireGpio3Enabled := false }

theorem networkParams_saves {ssidValue ssid : Bytes}
    (hmqtt : appWebReadMqttConfig (networkParams ssidValue) appConfigDefaults.mqtt = .ok appConfigDefaults.mqtt)
    (hnext : appConfigNormalize { settingsFields (networkParams ssidValue) appConfigDefaults with mqtt :=
      appConfigDefaults.mqtt } =
        networkConfig ssid)
    (hreboot : appWebFindParamValue (networkParams ssidValue) (ascii "reboot") ≠ some (ascii "1")) :
    appWebCgiSettingsHandler .healthy 0 (networkParams ssidValue) firstStart =
      { firstStart with runtime := networkConfig ssid, volume := savedFile (networkConfig ssid) }.answer
        .saved := by
  have hpassword : (networkConfig ssid).password.bytes.length = 8 := by
    show (CString.copy APP_CONFIG_PASSWORD_MAX_LEN (ascii "password")).bytes.length = 8
    decide +kernel
  have hlong : ¬((networkConfig ssid).security = .securityWpa2 ∧
      (networkConfig ssid).password.bytes.length < 8) := by
    rw [hpassword]
    exact fun h => absurd h.2 (by decide)
  exact firstStart_saves hmqtt hnext hlong hpassword.le hreboot

theorem homeNet_saves : appWebCgiSettingsHandler .healthy 0 (networkParams (ascii "Home+Net")) firstStart =
    { firstStart with
      runtime := networkConfig (ascii "Home Net")
      volume := savedFile (networkConfig (ascii "Home Net")) }.answer .saved :=
  networkParams_saves (by rfl) (by decide +kernel) (by decide +kernel)

theorem encodes_self {s : Bytes} (h : ∀ b ∈ s, b ≠ 37 ∧ b ≠ 43) : Encodes s s := by
  induction s with
  | nil => exact .nil
  | cons b s ih =>
    obtain ⟨h37, h43⟩ := h b List.mem_cons_self
    exact .itself h37 h43 (ih fun c hc => h c (List.mem_cons_of_mem _ hc))

theorem fieldText_of_plain {s : Bytes} (h : s.all (fun b => 48 ≤ b ∧ b < 0x7F) = true) (hne : s ≠ []) :
    FieldText s := by
  simp only [List.all_eq_true, decide_eq_true_eq] at h
  refine ⟨fun b hb => ?_, (plain_of_le fun b hb => (h b hb).1).trimmed, hne⟩
  rintro (hlt | rfl)
  · exact absurd (UInt8.le_trans (show 0x20 ≤ 48 by decide) (h b hb).1) (UInt8.not_le.2 hlt)
  · exact absurd (h 0x7F hb).2 (by decide)

theorem homeNet_stored :
    (appWebCgiSettingsHandler .healthy 0 (networkParams (ascii "Home+Net")) firstStart).2.runtime.ssid.bytes =
      ascii "Home Net" := by
  have hssid : FieldText (ascii "Home Net") := ⟨by decide +kernel, trimmed_of_trim (by decide +kernel), by decide⟩
  have hvalue : Encodes (ascii "Home+Net") (ascii "Home Net") :=
    (@encodes_self (ascii "Home") (by decide +kernel)).append
      (.plus (@encodes_self (ascii "Net") (by decide +kernel)))
  have hhostname : FieldText (ascii "blebridge") := fieldText_of_plain (by decide) (by decide)
  have hpassword : FieldText (ascii "password") := fieldText_of_plain (by decide) (by decide)
  have hsaved : (appWebCgiSettingsHandler .healthy 0 (networkParams (ascii "Home+Net"))
      firstStart).1.success = true := by
    rw [homeNet_saves]
    rfl
  exact ((settings_text_iff hssid hhostname hpassword hvalue (encodes_self (by decide +kernel))
    (encodes_self (by decide +kernel))
    (by decide +kernel) (by decide +kernel) (by decide +kernel) (by decide +kernel) hsaved).2
    ⟨.fits (by decide), .fits (by decide), .fits (by decide)⟩).1

/-- A network name of eight letters of two bytes each. -/
def kvartira : Bytes :=
  [0xD0, 0x9A, 0xD0, 0xB2, 0xD0, 0xB0, 0xD1, 0x80, 0xD1, 0x82, 0xD0, 0xB8, 0xD1, 0x80, 0xD0, 0xB0]

def kvartiraValue : Bytes := ascii "%D0%9A%D0%B2%D0%B0%D1%80%D1%82%D0%B8%D1%80%D0%B0"

theorem kvartiraValue_saves : appWebCgiSettingsHandler .healthy 0 (networkParams kvartiraValue) firstStart =
    { firstStart with
      runtime := networkConfig (kvartira.take 10 ++ ascii "%D")
      volume := savedFile (networkConfig (kvartira.take 10 ++ ascii "%D")) }.answer .saved :=
  networkParams_saves (by rfl) (by decide +kernel) (by decide +kernel)

/-- The network name is stored with its end cut off. -/
theorem kvartira_cut : FieldText kvartira ∧ kvartira.length ≤ 32 ∧ Encodes kvartiraValue kvartira ∧
    let r := appWebCgiSettingsHandler .healthy 0 (networkParams kvartiraValue) firstStart
    r.1 = .saved ∧ r.2.runtime.ssid.bytes = kvartira.take 10 ++ ascii "%D" ∧
      r.2.runtime.ssid.bytes ≠ kvartira := by
  refine ⟨⟨by decide +kernel, trimmed_of_trim (by decide +kernel), by decide⟩, by decide, ?_, ?_⟩
  · repeat' refine .escaped (by decide) (by decide) (by decide) ?_
    exact .nil
  · rw [kvartiraValue_saves]
    exact ⟨rfl, by decide +kernel, by decide +kernel⟩

end BLEBridge
