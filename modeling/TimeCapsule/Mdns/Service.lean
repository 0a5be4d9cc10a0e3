import TimeCapsule.Lib.Except
import TimeCapsule.Mdns.Config

/-!
# Services

The services the responder can offer, and the names of their records.  Every owner name is one label
and a fixed rest, so names of different kinds differ in their rest.
-/

namespace TimeCapsule.Mdns

open Lib

inductive Service where
  | smb
  | afp
  | adisk
  | deviceInfo
  | airport
  | riousbprint
  | pdlDatastream
deriving DecidableEq, Repr

namespace Service

def serviceType : Service → Bytes
  | smb => smbServiceType
  | afp => afpServiceType
  | adisk => adiskServiceType
  | deviceInfo => deviceInfoServiceType
  | airport => airportServiceType
  | riousbprint => riousbprintServiceType
  | pdlDatastream => pdlDatastreamServiceType

def enabled (cfg : Config) : Service → Bool
  | smb => smbEnabled cfg
  | afp => afpEnabled cfg
  | adisk => adiskEnabled cfg
  | deviceInfo => !cfg.deviceModel.isEmpty
  | airport => isAirportEnabled cfg
  | riousbprint => isRiousbprintEnabled cfg
  | pdlDatastream => isPdlDatastreamEnabled cfg

def instanceName (cfg : Config) : Service → Bytes
  | riousbprint | pdlDatastream => cfg.riousbprintInstanceName
  | _ => cfg.instanceName

def port (cfg : Config) : Service → UInt16
  | smb => cfg.port
  | afp => cfg.afpPort
  | adisk => cfg.adiskPort
  | deviceInfo => 0
  | airport => cfg.airportPort
  | riousbprint => cfg.riousbprintPort
  | pdlDatastream => cfg.pdlDatastreamPort

/-- The texts of the TXT record; without texts it is the empty one. -/
def txts (cfg : Config) : Service → Option (List Bytes)
  | smb | afp => some []
  | adisk => buildAdiskTxts cfg
  | deviceInfo => (buildModelTxt cfg.deviceModel).map fun txt => [txt]
  | airport => (buildAirportTxt cfg).map fun txt => [txt]
  | riousbprint => buildRiousbprintTxtItems cfg
  | pdlDatastream => buildPdlDatastreamTxtItems cfg

def buildFqdn (cfg : Config) (s : Service) : Option Bytes :=
  buildInstanceFqdn (s.instanceName cfg) s.serviceType

end Service

/-! ## Names of one label and a rest -/

def escapeLabel (label : Bytes) : Bytes :=
  label.flatMap fun ch => if ch = dot || ch = backslash then [backslash, ch] else [ch]

def dotted (label rest : Bytes) : Bytes := escapeLabel label ++ dot :: rest

/-- What follows the first dot that no backslash escapes. -/
def parentName (name : Bytes) : Bytes := go false name
where
  go : (escaped : Bool) → Bytes → Bytes
    | _, [] => []
    | true, _ :: rest => go false rest
    | false, ch :: rest => if ch = dot then rest else go (ch = backslash) rest

theorem escapeLabel_cons (ch : UInt8) (label : Bytes) :
    escapeLabel (ch :: label) =
      (if ch = dot || ch = backslash then [backslash, ch] else [ch]) ++ escapeLabel label := rfl

theorem parentName_dotted (label rest : Bytes) : parentName (dotted label rest) = rest := by
  unfold dotted parentName
  induction label with
  | nil => simp [escapeLabel, parentName.go]
  | cons ch label ih =>
    rw [escapeLabel_cons, List.append_assoc]
    by_cases hs : ch = dot || ch = backslash
    · rw [if_pos hs]
      show parentName.go false (backslash :: ch :: (escapeLabel label ++ dot :: rest)) = rest
      rw [parentName.go, if_neg (by decide)]
      exact ih
    · rw [if_neg hs]
      simp only [Bool.or_eq_true, decide_eq_true_eq, not_or] at hs
      show parentName.go false (ch :: (escapeLabel label ++ dot :: rest)) = rest
      rw [parentName.go, if_neg hs.1, decide_eq_false hs.2, ih]

theorem length_escapeLabel_le (label : Bytes) : (escapeLabel label).length ≤ 2 * label.length := by
  induction label with
  | nil => simp [escapeLabel]
  | cons ch label ih =>
    rw [escapeLabel_cons, List.length_append, List.length_cons]
    split <;> simp <;> omega

theorem escapeDnsLabel_go {outLen : Nat} {label out : Bytes}
    (h : out.length + (escapeLabel label).length < outLen) :
    escapeDnsLabel.go outLen label out = some (out ++ escapeLabel label) := by
  induction label generalizing out with
  | nil => simp [escapeDnsLabel.go, escapeLabel]
  | cons ch label ih =>
    rw [escapeLabel_cons] at h ⊢
    unfold escapeDnsLabel.go
    by_cases hs : ch = dot || ch = backslash
    · rw [if_pos hs] at h ⊢
      simp only [List.length_append, List.length_cons, List.length_nil] at h
      rw [if_pos hs, if_neg (by omega), ih (by simp; omega), List.append_assoc]
    · rw [if_neg hs] at h ⊢
      simp only [List.length_append, List.length_cons, List.length_nil] at h
      rw [if_neg hs, if_neg (by omega), ih (by simp; omega), List.append_assoc]

theorem escapeDnsLabel_go_eq {outLen : Nat} {label out escaped : Bytes}
    (h : escapeDnsLabel.go outLen label out = some escaped) : escaped = out ++ escapeLabel label := by
  induction label generalizing out with
  | nil =>
    unfold escapeDnsLabel.go at h
    simpa [escapeLabel] using h.symm
  | cons ch label ih =>
    rw [escapeLabel_cons]
    unfold escapeDnsLabel.go at h
    by_cases hs : ch = dot || ch = backslash
    · rw [if_pos hs] at h ⊢
      split at h
      · cases h
      · rw [ih h, List.append_assoc]
    · rw [if_neg hs] at h ⊢
      split at h
      · cases h
      · rw [ih h, List.append_assoc]

theorem buildInstanceFqdn_eq {name type fqdn : Bytes} (h : buildInstanceFqdn name type = some fqdn) :
    fqdn = dotted name type ∧ fqdn.length < maxName := by
  unfold buildInstanceFqdn escapeDnsLabel at h
  split at h
  · cases h
  · obtain ⟨escaped, hgo, h⟩ := Option.bind_eq_some_iff.mp h
    dsimp only at h
    split at h
    · cases h
    · next hlen =>
      obtain rfl := Option.some.inj h
      rw [escapeDnsLabel_go_eq hgo, List.nil_append, List.append_assoc] at hlen ⊢
      exact ⟨rfl, by simpa using hlen⟩

theorem buildInstanceFqdn_dotted {name type : Bytes} (hname : name ≠ []) (hlen : name.length ≤ maxLabel)
    (htype : type.length ≤ 100) : buildInstanceFqdn name type = some (dotted name type) := by
  have hescaped := length_escapeLabel_le name
  unfold maxLabel at hlen
  unfold buildInstanceFqdn escapeDnsLabel
  rw [if_neg hname, escapeDnsLabel_go (by simp [maxName]; omega)]
  show (if maxName ≤ _ then none else _) = _
  rw [if_neg (by simp [maxName]; omega)]
  simp [dotted]

theorem buildHostFqdn_dotted {label : Bytes} (hlabel : label ≠ []) (hlen : label.length ≤ maxLabel) :
    buildHostFqdn label = some (dotted label (ascii "local.")) := by
  have hescaped := length_escapeLabel_le label
  unfold maxLabel at hlen
  unfold buildHostFqdn escapeDnsLabel
  rw [if_neg hlabel, escapeDnsLabel_go (by simp [maxName]; omega)]
  show (if maxName ≤ _ then none else _) = _
  have hdot : ascii ".local." = dot :: ascii "local." := by decide
  have hlocal : (ascii "local.").length = 6 := by decide
  rw [hdot, if_neg (by simp [maxName, hlocal]; omega)]
  simp [dotted]

/-! ### Comparing such names -/

/-- The form of a name that comparisons use. -/
def canonicalName (name : Bytes) : Bytes := (withoutTrailingDots name).map asciiLower

theorem nameEquals_iff {a b : Bytes} : nameEquals a b ↔ canonicalName a = canonicalName b := beq_iff_eq

theorem asciiLower_eq_dot (ch : UInt8) : asciiLower ch = dot ↔ ch = dot := by
  unfold asciiLower dot
  split <;> grind

theorem asciiLower_eq_backslash (ch : UInt8) : asciiLower ch = backslash ↔ ch = backslash := by
  unfold asciiLower backslash
  split <;> grind

theorem map_asciiLower_escapeLabel (label : Bytes) :
    (escapeLabel label).map asciiLower = escapeLabel (label.map asciiLower) := by
  induction label with
  | nil => rfl
  | cons ch label ih =>
    rw [List.map_cons, escapeLabel_cons, escapeLabel_cons, List.map_append, ih]
    congr 1
    simp only [asciiLower_eq_dot, asciiLower_eq_backslash]
    split
    · rw [List.map_cons, (asciiLower_eq_backslash _).mpr rfl, List.map_cons, List.map_nil]
    · rfl

theorem withoutTrailingDots_append {a b : Bytes} (h : withoutTrailingDots b ≠ []) :
    withoutTrailingDots (a ++ b) = a ++ withoutTrailingDots b := by
  unfold withoutTrailingDots at h ⊢
  rw [ne_eq, List.reverse_eq_nil_iff] at h
  rw [List.reverse_append, List.dropWhile_append, if_neg (by simpa using h), List.reverse_append,
    List.reverse_reverse]

theorem canonicalName_dotted {label rest : Bytes} (h : canonicalName rest ≠ []) :
    canonicalName (dotted label rest) = dotted (label.map asciiLower) (canonicalName rest) := by
  have hrest : withoutTrailingDots rest ≠ [] := fun h' => h (by rw [canonicalName, h', List.map_nil])
  have hcons : dotted label rest = (escapeLabel label ++ [dot]) ++ rest := by simp [dotted]
  unfold canonicalName
  rw [hcons, withoutTrailingDots_append hrest, List.map_append, List.map_append,
    map_asciiLower_escapeLabel, List.map_cons, (asciiLower_eq_dot _).mpr rfl]
  simp [dotted]

/-- Equal names have equal rests. -/
theorem nameEquals_parent {label rest label' rest' : Bytes} (h : canonicalName rest ≠ [])
    (h' : canonicalName rest' ≠ []) (heq : nameEquals (dotted label rest) (dotted label' rest')) :
    nameEquals rest rest' := by
  rw [nameEquals_iff, canonicalName_dotted h, canonicalName_dotted h'] at heq
  rw [nameEquals_iff, ← parentName_dotted (label.map asciiLower) (canonicalName rest), heq,
    parentName_dotted]

/-! ## The owners of the responder's records -/

inductive Owner where
  | enumeration
  | service (s : Service)
  | inst (s : Service)
  | host
deriving DecidableEq, Repr

namespace Owner

variable (cfg : Config)

def label : Owner → Bytes
  | enumeration => ascii "_services"
  | service .smb => ascii "_smb"
  | service .afp => ascii "_afpovertcp"
  | service .adisk => ascii "_adisk"
  | service .deviceInfo => ascii "_device-info"
  | service .airport => ascii "_airport"
  | service .riousbprint => ascii "_riousbprint"
  | service .pdlDatastream => ascii "_pdl-datastream"
  | inst s => s.instanceName cfg
  | host => cfg.hostLabel

def rest : Owner → Bytes
  | enumeration => ascii "_dns-sd._udp.local."
  | service _ => ascii "_tcp.local."
  | inst s => s.serviceType
  | host => ascii "local."

def text (o : Owner) : Bytes := dotted (o.label cfg) o.rest

theorem text_enumeration : enumeration.text cfg = dnsSdServiceEnumerationName := by
  show dotted (ascii "_services") (ascii "_dns-sd._udp.local.") = dnsSdServiceEnumerationName
  decide

theorem text_service (s : Service) : (service s).text cfg = s.serviceType := by
  unfold text label rest
  cases s <;> dsimp only <;> decide

theorem canonical_rest_ne (o : Owner) : canonicalName o.rest ≠ [] := by
  unfold rest
  cases o with
  | inst s => cases s <;> decide
  | _ => dsimp only; decide

theorem serviceType_inj (s s' : Service) (h : nameEquals s.serviceType s'.serviceType) : s = s' := by
  revert h
  cases s <;> cases s' <;> decide

/-- The rests of different kinds of owners are different. -/
theorem kind_of_rest {o o' : Owner} (h : nameEquals o.rest o'.rest) :
    o = o' ∨ ∃ s s', o = service s ∧ o' = service s' := by
  have htcp : ∀ s : Service, canonicalName s.serviceType ≠ canonicalName (ascii "_tcp.local.") := by
    intro s
    cases s <;> decide
  have hudp : ∀ s : Service,
      canonicalName s.serviceType ≠ canonicalName (ascii "_dns-sd._udp.local.") := by
    intro s
    cases s <;> decide
  have hlocal : ∀ s : Service, canonicalName s.serviceType ≠ canonicalName (ascii "local.") := by
    intro s
    cases s <;> decide
  have h₁ : canonicalName (ascii "_tcp.local.") ≠ canonicalName (ascii "_dns-sd._udp.local.") := by
    decide
  have h₂ : canonicalName (ascii "_tcp.local.") ≠ canonicalName (ascii "local.") := by decide
  have h₃ : canonicalName (ascii "_dns-sd._udp.local.") ≠ canonicalName (ascii "local.") := by decide
  rw [nameEquals_iff] at h
  cases o with
  | enumeration =>
    cases o' with
    | enumeration => exact Or.inl rfl
    | service s' => exact absurd h.symm h₁
    | inst s' => exact absurd h.symm (hudp s')
    | host => exact absurd h h₃
  | service s =>
    cases o' with
    | enumeration => exact absurd h h₁
    | service s' => exact Or.inr ⟨s, s', rfl, rfl⟩
    | inst s' => exact absurd h.symm (htcp s')
    | host => exact absurd h h₂
  | inst s =>
    cases o' with
    | enumeration => exact absurd h (hudp s)
    | service s' => exact absurd h (htcp s)
    | inst s' => exact Or.inl (congrArg inst (serviceType_inj s s' (nameEquals_iff.mpr h)))
    | host => exact absurd h (hlocal s)
  | host =>
    cases o' with
    | enumeration => exact absurd h.symm h₃
    | service s' => exact absurd h.symm h₂
    | inst s' => exact absurd h.symm (hlocal s')
    | host => exact Or.inl rfl

/-- Different owners have different names. -/
theorem text_inj {o o' : Owner} (h : nameEquals (o.text cfg) (o'.text cfg)) : o = o' := by
  rcases kind_of_rest (nameEquals_parent (canonical_rest_ne o) (canonical_rest_ne o') h) with
    rfl | ⟨s, s', rfl, rfl⟩
  · rfl
  · rw [text_service, text_service] at h
    rw [serviceType_inj s s' h]

end Owner

/-! ## Texts of the records -/

/-- Every text fits a string of a TXT record. -/
def ShortTxts (txts : List Bytes) : Prop := ∀ t ∈ txts, t.length ≤ maxTxtString

section ShortTxts

variable {cfg : Config} {txts out : List Bytes} {txt : Bytes}

theorem appendTxtItem_short (ht : ShortTxts txts) (h : appendTxtItem txts txt = some out) :
    ShortTxts out := by
  unfold appendTxtItem at h
  split at h
  · cases h
  · next hfit =>
    obtain rfl := Option.some.inj h
    simp only [Bool.or_eq_true, decide_eq_true_eq, not_or, not_lt] at hfit
    intro t hmem
    rcases List.mem_append.mp hmem with hmem | hmem
    · exact ht t hmem
    · rw [List.mem_singleton.mp hmem]
      exact hfit.2

theorem appendTxtItemIfSet_short {key value : Bytes} (ht : ShortTxts txts)
    (h : appendTxtItemIfSet txts key value = some out) : ShortTxts out := by
  unfold appendTxtItemIfSet at h
  split at h
  · obtain rfl := Option.some.inj h
    exact ht
  · exact appendTxtItem_short ht h

theorem intro_short (ht : ShortTxts txts)
    (h : appendAirportUsbPrinterIntroTxtItems cfg txts = some out) : ShortTxts out := by
  obtain ⟨a, ha, h⟩ := Option.bind_eq_some_iff.mp h
  obtain ⟨b, hb, h⟩ := Option.bind_eq_some_iff.mp h
  obtain ⟨c, hc, h⟩ := Option.bind_eq_some_iff.mp h
  exact appendTxtItem_short (appendTxtItem_short (appendTxtItem_short
    (appendTxtItem_short ht ha) hb) hc) h

theorem device_short (ht : ShortTxts txts)
    (h : appendAirportUsbPrinterDeviceTxtItems cfg txts = some out) : ShortTxts out := by
  obtain ⟨a, ha, h⟩ := Option.bind_eq_some_iff.mp h
  obtain ⟨b, hb, h⟩ := Option.bind_eq_some_iff.mp h
  obtain ⟨c, hc, h⟩ := Option.bind_eq_some_iff.mp h
  obtain ⟨d, hd, h⟩ := Option.bind_eq_some_iff.mp h
  exact appendTxtItem_short (appendTxtItem_short (appendTxtItemIfSet_short
    (appendTxtItemIfSet_short (appendTxtItemIfSet_short ht ha) hb) hc) hd) h

theorem pdl_short (ht : ShortTxts txts) (h : appendRiousbprintPdlTxtItem cfg txts = some out) :
    ShortTxts out := by
  unfold appendRiousbprintPdlTxtItem at h
  split at h
  · obtain rfl := Option.some.inj h
    exact ht
  · obtain ⟨pdl, -, h⟩ := Option.bind_eq_some_iff.mp h
    exact appendTxtItem_short ht h

theorem shortTxts_nil : ShortTxts [] := by
  intro t h
  cases h

theorem shortTxts_singleton (h : txt.length ≤ maxTxtString) : ShortTxts [txt] := by
  intro t ht
  rwa [List.mem_singleton.mp ht]

theorem buildRiousbprintTxtItems_short (h : buildRiousbprintTxtItems cfg = some out) :
    ShortTxts out := by
  unfold buildRiousbprintTxtItems at h
  split at h
  · cases h
  obtain ⟨a, ha, h⟩ := Option.bind_eq_some_iff.mp h
  obtain ⟨b, hb, h⟩ := Option.bind_eq_some_iff.mp h
  obtain ⟨c, hc, h⟩ := Option.bind_eq_some_iff.mp h
  obtain ⟨d, hd, h⟩ := Option.bind_eq_some_iff.mp h
  exact device_short (appendTxtItem_short (pdl_short (appendTxtItem_short
    (intro_short shortTxts_nil ha) hb) hc) hd) h

theorem buildPdlDatastreamTxtItems_short (h : buildPdlDatastreamTxtItems cfg = some out) :
    ShortTxts out := by
  unfold buildPdlDatastreamTxtItems at h
  split at h
  · cases h
  obtain ⟨a, ha, h⟩ := Option.bind_eq_some_iff.mp h
  obtain ⟨b, hb, h⟩ := Option.bind_eq_some_iff.mp h
  obtain ⟨c, hc, h⟩ := Option.bind_eq_some_iff.mp h
  obtain ⟨d, hd, h⟩ := Option.bind_eq_some_iff.mp h
  exact appendTxtItem_short (device_short (appendTxtItem_short (appendTxtItem_short
    (intro_short shortTxts_nil ha) hb) hc) hd) h

theorem buildModelTxt_short {model : Bytes} (h : buildModelTxt model = some txt) :
    txt.length ≤ maxTxtString := by
  unfold buildModelTxt at h
  dsimp only at h
  split at h
  · cases h
  · next hfit =>
    obtain rfl := Option.some.inj h
    simp only [Bool.or_eq_true, decide_eq_true_eq, not_or, not_lt] at hfit
    exact hfit.2

theorem appendAirportFields_short {fields : List (Bytes × Bytes)} {text : Bytes}
    (ht : text.length ≤ maxTxtString) (h : appendAirportFields fields text = some txt) :
    txt.length ≤ maxTxtString := by
  induction fields generalizing text with
  | nil =>
    obtain rfl := Option.some.inj h
    exact ht
  | cons field rest ih =>
    unfold appendAirportFields at h
    split at h
    · exact ih ht h
    · obtain ⟨next, happend, h⟩ := Option.bind_eq_some_iff.mp h
      obtain ⟨hlen, rfl⟩ := appendBytes_eq_some.mp happend
      exact ih (by rw [List.length_append]; exact hlen) h

theorem buildAirportTxt_short (h : buildAirportTxt cfg = some txt) : txt.length ≤ maxTxtString := by
  unfold buildAirportTxt at h
  split at h
  · cases h
  obtain ⟨wama, -, h⟩ := Option.bind_eq_some_iff.mp h
  obtain ⟨rama, -, h⟩ := Option.bind_eq_some_iff.mp h
  obtain ⟨ram2, -, h⟩ := Option.bind_eq_some_iff.mp h
  obtain ⟨rast, -, h⟩ := Option.bind_eq_some_iff.mp h
  obtain ⟨rana, -, h⟩ := Option.bind_eq_some_iff.mp h
  obtain ⟨syfl, -, h⟩ := Option.bind_eq_some_iff.mp h
  obtain ⟨syvs, -, h⟩ := Option.bind_eq_some_iff.mp h
  obtain ⟨srcv, -, h⟩ := Option.bind_eq_some_iff.mp h
  obtain ⟨bjsd, -, h⟩ := Option.bind_eq_some_iff.mp h
  obtain ⟨syap, -, h⟩ := Option.bind_eq_some_iff.mp h
  obtain ⟨text, htext, h⟩ := Option.bind_eq_some_iff.mp h
  split at h
  · cases h
  · obtain rfl := Option.some.inj h
    exact appendAirportFields_short (by decide) htext

theorem buildAdiskSystemTxt_short {wama : Bytes} (h : buildAdiskSystemTxt wama = some txt) :
    txt.length ≤ maxTxtString := by
  unfold buildAdiskSystemTxt at h
  dsimp only at h
  split at h
  · cases h
  split at h
  · cases h
  · next hfit =>
    obtain rfl := Option.some.inj h
    simp only [Bool.or_eq_true, decide_eq_true_eq, not_or, not_lt] at hfit
    exact hfit.1

theorem buildAdiskDiskTxt_short {key share uuid advf : Bytes}
    (h : buildAdiskDiskTxt key share uuid advf = some txt) : txt.length ≤ maxTxtString := by
  unfold buildAdiskDiskTxt at h
  dsimp only at h
  split at h
  · cases h
  split at h
  · cases h
  split at h
  · cases h
  · next hfit =>
    obtain rfl := Option.some.inj h
    exact not_lt.mp hfit

theorem buildAdiskTxts_short (h : buildAdiskTxts cfg = some out) : ShortTxts out := by
  obtain ⟨system, hsystem, h⟩ := Option.bind_eq_some_iff.mp h
  obtain ⟨disks, hdisks, h⟩ := Option.bind_eq_some_iff.mp h
  obtain rfl := Option.some.inj h
  intro t ht
  rcases List.mem_cons.mp ht with rfl | ht
  · exact buildAdiskSystemTxt_short hsystem
  · obtain ⟨disk, -, hdisk⟩ := exists_of_mapM hdisks ht
    exact buildAdiskDiskTxt_short hdisk

/-- The texts of every service are short. -/
theorem Service.txts_short {s : Service} (h : s.txts cfg = some out) : ShortTxts out := by
  cases s with
  | smb =>
    obtain rfl := Option.some.inj h
    exact shortTxts_nil
  | afp =>
    obtain rfl := Option.some.inj h
    exact shortTxts_nil
  | adisk => exact buildAdiskTxts_short h
  | deviceInfo =>
    obtain ⟨txt, htxt, rfl⟩ := Option.map_eq_some_iff.mp h
    exact shortTxts_singleton (buildModelTxt_short htxt)
  | airport =>
    obtain ⟨txt, htxt, rfl⟩ := Option.map_eq_some_iff.mp h
    exact shortTxts_singleton (buildAirportTxt_short htxt)
  | riousbprint => exact buildRiousbprintTxtItems_short h
  | pdlDatastream => exact buildPdlDatastreamTxtItems_short h

end ShortTxts

/-! ## Accepted configurations -/

section Accepted

theorem validateAdiskDiskAdvf_take {advf : Bytes} (h : validateAdiskDiskAdvf advf) :
    validateAdiskDiskAdvf (advf.take 15) ∧ advf.take 15 ≠ [] := by
  unfold validateAdiskDiskAdvf at h
  split at h
  · next x digits =>
    simp only [Bool.and_eq_true, Bool.not_eq_true', List.isEmpty_eq_false_iff, List.all_eq_true] at h
    obtain ⟨⟨hx, hne⟩, hall⟩ := h
    show validateAdiskDiskAdvf (48 :: x :: digits.take 13) ∧ 48 :: x :: digits.take 13 ≠ []
    unfold validateAdiskDiskAdvf
    simp only [Bool.and_eq_true, Bool.not_eq_true', List.isEmpty_eq_false_iff, List.all_eq_true]
    refine ⟨⟨⟨hx, ?_⟩, fun d hd => hall d (List.mem_of_mem_take hd)⟩, by simp⟩
    rw [ne_eq, List.take_eq_nil_iff]
    simp [hne]
  · cases h

theorem addAdiskDiskConfig_eq_some {cfg cfg' : Config} {row : AdiskShareRow}
    (h : addAdiskDiskConfig cfg row = some cfg') :
    ∃ disk : AdiskDisk, disk.txt.isSome ∧
      cfg' = { cfg with adiskDisks := cfg.adiskDisks ++ [disk] } := by
  unfold addAdiskDiskConfig at h
  split at h
  · cases h
  obtain ⟨txt, htxt, h⟩ := Option.bind_eq_some_iff.mp h
  obtain rfl := Option.some.inj h
  refine ⟨_, ?_, rfl⟩
  unfold buildAdiskDiskTxt at htxt
  dsimp only at htxt
  split at htxt
  · cases htxt
  next hne =>
  split at htxt
  · cases htxt
  next hvalid =>
  split at htxt
  · cases htxt
  next hfit =>
  simp only [Bool.or_eq_true, decide_eq_true_eq, not_or] at hne
  simp only [Bool.or_eq_true, Bool.not_eq_true', not_or, bne_iff_ne, ne_eq, not_not,
    Bool.not_eq_false] at hvalid
  obtain ⟨⟨⟨hkey, hshare⟩, huuid⟩, hadvf⟩ := hvalid
  obtain ⟨hadvf', hadvfne⟩ := validateAdiskDiskAdvf_take hadvf
  have hkeylen : row.diskKey.length ≤ maxLabel := by
    simp only [validateSingleDnsLabel, validateDnsLabelText, Bool.and_eq_true,
      decide_eq_true_eq] at hkey
    exact hkey.1.1.2
  simp only [List.length_append, not_lt, maxTxtString] at hfit
  have hadvflen : (row.diskAdvf.take 15).length ≤ row.diskAdvf.length := List.length_take_le' 15 _
  show (buildAdiskDiskTxt (row.diskKey.take maxLabel) (row.shareName.take (maxName - 1))
    (row.uuid.take adiskDiskUuidLen) (row.diskAdvf.take 15)).isSome
  rw [List.take_of_length_le hkeylen, List.take_of_length_le (l := row.shareName) (by simp only [maxName]; omega),
    List.take_of_length_le (l := row.uuid) (Nat.le_of_eq huuid)]
  unfold buildAdiskDiskTxt
  dsimp only
  rw [if_neg (by simp [hne, hadvfne]), if_neg (by simp [hkey, hshare, huuid, hadvf']),
    if_neg (by simp only [List.length_append, not_lt, maxTxtString]; omega)]
  rfl

theorem foldlM_addAdiskDiskConfig {cfg cfg' : Config} {rows : List AdiskShareRow}
    (hcfg : ∀ disk ∈ cfg.adiskDisks, disk.txt.isSome)
    (h : rows.foldlM addAdiskDiskConfig cfg = some cfg') :
    (∀ disk ∈ cfg'.adiskDisks, disk.txt.isSome) ∧
      cfg' = { cfg with adiskDisks := cfg'.adiskDisks } := by
  induction rows generalizing cfg with
  | nil =>
    obtain rfl := Option.some.inj h
    exact ⟨hcfg, rfl⟩
  | cons row rows ih =>
    rw [List.foldlM_cons] at h
    obtain ⟨next, hnext, h⟩ := Option.bind_eq_some_iff.mp h
    obtain ⟨disk, hdisk, rfl⟩ := addAdiskDiskConfig_eq_some hnext
    obtain ⟨hdisks, heq⟩ := ih (by
      intro d hd
      rcases List.mem_append.mp hd with hd | hd
      · exact hcfg d hd
      · rw [List.mem_singleton.mp hd]
        exact hdisk) h
    exact ⟨hdisks, by rw [heq]⟩

/-- What the checks of the options make sure of, of the part of them for either scope. -/
structure Accepted (cfg : Config) : Prop where
  instanceName_ne : cfg.instanceName ≠ []
  instanceName_le : cfg.instanceName.length ≤ maxLabel
  hostLabel_ne : cfg.hostLabel ≠ []
  hostLabel_le : cfg.hostLabel.length ≤ maxLabel
  hostFqdn : cfg.hostFqdn = Owner.host.text cfg ∨
    (cfg.hostFqdn = [] ∧ ∀ s : Service, s.enabled cfg = false)
  printerName_le : isRiousbprintEnabled cfg → cfg.riousbprintInstanceName.length ≤ maxLabel
  txts : ∀ s : Service, s.enabled cfg → (s.txts cfg).isSome

theorem validateGeneratedDnsLabel_le {value : Bytes} (h : validateGeneratedDnsLabel value) :
    value.length ≤ maxLabel := by
  simp only [validateGeneratedDnsLabel, validateDnsLabelText, Bool.and_eq_true,
    decide_eq_true_eq] at h
  exact h.1.1.2

/-- The checks of the printer change its command set at most. -/
theorem validatePrinter_eq_ok {cfg cfg' : Config} {usbCmd : Bytes}
    (h : validatePrinter cfg usbCmd = .ok cfg') :
    (∃ cmd, cfg' = { cfg with riousbprintCmd := cmd }) ∧
      (isRiousbprintEnabled cfg' → cfg'.riousbprintInstanceName.length ≤ maxLabel ∧
        (buildRiousbprintTxtItems cfg').isSome ∧ (buildPdlDatastreamTxtItems cfg').isSome) := by
  unfold validatePrinter at h
  split at h
  · next hdisabled =>
    obtain rfl := Except.ok.inj h
    refine ⟨⟨cfg.riousbprintCmd, rfl⟩, fun henabled => ?_⟩
    simp [henabled] at hdisabled
  split at h
  · cases h
  next hlabel =>
  split at h
  · cases h
  dsimp only at h
  split at h
  · cases h
  next htxts =>
  obtain rfl := Except.ok.inj h
  simp only [Bool.or_eq_true, Option.isNone_iff_eq_none, not_or, ← ne_eq, Option.ne_none_iff_isSome] at htxts
  have hle := validateGeneratedDnsLabel_le (by simpa using hlabel)
  have hcmd : ∃ cmd, discoverRiousbprintUsbCmd cfg usbCmd = { cfg with riousbprintCmd := cmd } := by
    unfold discoverRiousbprintUsbCmd
    split
    · exact ⟨_, rfl⟩
    · exact ⟨cfg.riousbprintCmd, rfl⟩
  refine ⟨hcmd, fun _ => ⟨?_, htxts⟩⟩
  obtain ⟨cmd, hcmd⟩ := hcmd
  rw [hcmd]
  exact hle

theorem validateConfig_accepted {cfg cfg' : Config} {rows : List AdiskShareRow} {usbCmd : Bytes}
    (h : validateConfig cfg rows usbCmd = .ok cfg') : Accepted cfg' := by
  unfold validateConfig at h
  rw [ite_error_eq_ok, ite_error_eq_ok] at h
  obtain ⟨hargs, hlabels, h⟩ := h
  obtain ⟨withDisks, hdisks, h⟩ := bind_eq_ok.mp h
  rw [elim_eq_ok] at hdisks
  rw [ite_error_eq_ok, ite_error_eq_ok] at h
  obtain ⟨hsystem, hmodel, h⟩ := h
  obtain ⟨withPrinter, hprinter, h⟩ := bind_eq_ok.mp h
  rw [ite_error_eq_ok] at h
  obtain ⟨hairport, h⟩ := h
  obtain ⟨fqdn, hfqdn, h⟩ := bind_eq_ok.mp h
  rw [elim_eq_ok] at hfqdn
  obtain rfl := Except.ok.inj h
  obtain ⟨htxt, heq⟩ := foldlM_addAdiskDiskConfig (by simp) hdisks
  obtain ⟨⟨cmd, hcmd⟩, hitems⟩ := validatePrinter_eq_ok hprinter
  simp only [Bool.or_eq_true, Bool.not_eq_true', decide_eq_true_eq, not_or, Bool.not_eq_false] at hargs hlabels
  have hinstance : withPrinter.instanceName = cfg.instanceName := by rw [hcmd, heq]
  have hhost : withPrinter.hostLabel = cfg.hostLabel := by rw [hcmd, heq]
  have hhostle : withPrinter.hostLabel.length ≤ maxLabel :=
    hhost ▸ validateGeneratedDnsLabel_le hlabels.2
  have hhostne : withPrinter.hostLabel ≠ [] := hhost ▸ hargs.2
  exact {
    instanceName_ne := hinstance ▸ hargs.1
    instanceName_le := hinstance ▸ validateGeneratedDnsLabel_le hlabels.1
    hostLabel_ne := hhostne
    hostLabel_le := hhostle
    hostFqdn := by
      rw [buildHostFqdn_dotted hhostne hhostle] at hfqdn
      exact Or.inl (Option.some.inj hfqdn).symm
    printerName_le := fun henabled => (hitems henabled).1
    txts := by
      intro s henabled
      cases s with
      | smb => rfl
      | afp => rfl
      | adisk =>
        have hsys : (buildAdiskSystemTxt withPrinter.adiskSysWama).isSome := by
          rw [hcmd] at henabled ⊢
          rw [Option.isSome_iff_ne_none]
          simpa [show adiskEnabled withDisks = true from henabled] using hsystem
        have hd : (withPrinter.adiskDisks.mapM AdiskDisk.txt).isSome :=
          mapM_isSome (by rw [hcmd]; exact htxt)
        obtain ⟨system, hsystem⟩ := Option.isSome_iff_exists.mp hsys
        obtain ⟨disks, hdisks⟩ := Option.isSome_iff_exists.mp hd
        show (buildAdiskTxts withPrinter).isSome
        simp [buildAdiskTxts, hsystem, hdisks]
      | deviceInfo =>
        have hmodel' : withPrinter.deviceModel = withDisks.deviceModel := by rw [hcmd]
        have hne : withDisks.deviceModel ≠ [] := by
          rw [← hmodel']
          simpa using show (!withPrinter.deviceModel.isEmpty) = true from henabled
        show ((buildModelTxt withPrinter.deviceModel).map _).isSome
        rw [hmodel', Option.isSome_map, Option.isSome_iff_ne_none]
        simpa [hne] using hmodel
      | airport =>
        show ((buildAirportTxt withPrinter).map _).isSome
        rw [Option.isSome_map, Option.isSome_iff_ne_none]
        simpa [show isAirportEnabled withPrinter = true from henabled] using hairport
      | riousbprint => exact (hitems henabled).2.1
      | pdlDatastream => exact (hitems henabled).2.2 }

theorem Accepted.hostFqdn_of_enabled {cfg : Config} (h : Accepted cfg) {s : Service}
    (hs : s.enabled cfg) : cfg.hostFqdn = Owner.host.text cfg := by
  rcases h.hostFqdn with hhost | ⟨-, hnone⟩
  · exact hhost
  · rw [hnone s] at hs
    cases hs

/-- On a link of wide-area scope only the AirPort service is left. -/
theorem enabled_wan (cfg : Config) (s : Service) :
    s.enabled (mdnsConfigForScope cfg .wan) = (decide (s = .airport) && isAirportEnabled cfg) := by
  have hairport : isAirportEnabled { cfg with
      diskless := true, advertiseAfp := false, deviceModel := [], riousbprintInstanceName := [] } =
      isAirportEnabled cfg := rfl
  unfold mdnsConfigForScope
  dsimp only
  rw [hairport]
  by_cases h : isAirportEnabled cfg
  · rw [if_pos h]
    cases s <;> rfl
  · rw [if_neg h]
    cases s <;> rfl

theorem Accepted.scoped {cfg : Config} (h : Accepted cfg) (scope : MdnsServiceScope) :
    Accepted (mdnsConfigForScope cfg scope) := by
  cases scope with
  | lan => exact h
  | wan =>
    have hdisabled : ∀ s : Service, s ≠ .airport →
        s.enabled (mdnsConfigForScope cfg .wan) = false := by
      intro s hs
      rw [enabled_wan]
      simp [hs]
    have htxts : ∀ s : Service, s.enabled (mdnsConfigForScope cfg .wan) →
        (s.txts (mdnsConfigForScope cfg .wan)).isSome := by
      intro s hs
      rw [enabled_wan, Bool.and_eq_true, decide_eq_true_eq] at hs
      obtain ⟨rfl, henabled⟩ := hs
      have htxt := h.txts .airport henabled
      unfold mdnsConfigForScope
      dsimp only
      split <;> exact htxt
    have hprinter : ¬ isRiousbprintEnabled (mdnsConfigForScope cfg .wan) := by
      rw [show isRiousbprintEnabled (mdnsConfigForScope cfg .wan) = false from
        hdisabled .riousbprint (by decide)]
      decide
    unfold mdnsConfigForScope at hdisabled htxts hprinter ⊢
    dsimp only at hdisabled htxts hprinter ⊢
    split at hdisabled
    · next hon =>
      rw [if_pos hon] at htxts hprinter ⊢
      exact {
        instanceName_ne := h.instanceName_ne
        instanceName_le := h.instanceName_le
        hostLabel_ne := h.hostLabel_ne
        hostLabel_le := h.hostLabel_le
        hostFqdn := Or.inl (h.hostFqdn_of_enabled (s := .airport) hon)
        printerName_le := fun hp => absurd hp hprinter
        txts := htxts }
    · next hoff =>
      rw [if_neg hoff] at htxts hprinter ⊢
      refine {
        instanceName_ne := h.instanceName_ne
        instanceName_le := h.instanceName_le
        hostLabel_ne := h.hostLabel_ne
        hostLabel_le := h.hostLabel_le
        hostFqdn := Or.inr ⟨rfl, fun s => ?_⟩
        printerName_le := fun hp => absurd hp hprinter
        txts := htxts }
      by_cases hs : s = .airport
      · subst hs
        exact Bool.eq_false_iff.mpr hoff
      · exact hdisabled s hs

end Accepted

/-! ## The names on the wire -/

theorem wireNameFrom_escapeLabel {label start : Bytes} (rest : Bytes)
    (h : start.length + label.length ≤ maxLabel) :
    wireNameFrom (escapeLabel label ++ rest) false start = wireNameFrom rest false (start ++ label) := by
  induction label generalizing start with
  | nil => simp [escapeLabel]
  | cons ch label ih =>
    rw [List.length_cons] at h
    have hstart : ¬ maxLabel ≤ start.length := by omega
    have hnext : (start ++ [ch]).length + label.length ≤ maxLabel := by
      rw [List.length_append, List.length_singleton]
      omega
    rw [escapeLabel_cons, List.append_assoc]
    by_cases hs : ch = dot || ch = backslash
    · rw [if_pos hs]
      show wireNameFrom (backslash :: ch :: (escapeLabel label ++ rest)) false start = _
      rw [wireNameFrom, if_pos rfl, wireNameFrom, if_neg hstart, ih hnext, List.append_assoc]
      rfl
    · rw [if_neg hs]
      simp only [Bool.or_eq_true, decide_eq_true_eq, not_or] at hs
      show wireNameFrom (ch :: (escapeLabel label ++ rest)) false start = _
      rw [wireNameFrom, if_neg hs.2, if_neg hs.1, if_neg hstart, ih hnext, List.append_assoc]
      rfl

theorem wireName_dotted {label : Bytes} (rest : Bytes) (hne : label ≠ [])
    (hle : label.length ≤ maxLabel) :
    wireName (dotted label rest) =
      (wireNameFrom rest false []).map ((UInt8.ofNat label.length :: label) ++ ·) := by
  have hdotted : dotted label rest ≠ [] := by
    unfold dotted
    simp
  unfold wireName
  rw [if_neg hdotted, dotted, wireNameFrom_escapeLabel _ (by simpa using hle), List.nil_append,
    wireNameFrom, if_neg (by decide), if_pos rfl, if_neg hne]

/-- The owners that can own a record of the configuration. -/
def Owner.Used (cfg : Config) : Owner → Prop
  | .inst s => s.enabled cfg
  | _ => True

theorem Owner.rest_encodes (o : Owner) : (wireNameFrom o.rest false []).isSome := by
  unfold Owner.rest
  cases o with
  | inst s => cases s <;> decide
  | _ => dsimp only; decide

namespace Accepted

variable {cfg : Config} {o : Owner}

theorem instance_ne (h : Accepted cfg) {s : Service} (hs : s.enabled cfg) :
    s.instanceName cfg ≠ [] := by
  have hprinter : isRiousbprintEnabled cfg → cfg.riousbprintInstanceName ≠ [] := by
    unfold isRiousbprintEnabled isAirportUsbPrinterEnabled
    simp
  cases s with
  | riousbprint => exact hprinter hs
  | pdlDatastream => exact hprinter hs
  | _ => exact h.instanceName_ne

theorem instance_le (h : Accepted cfg) {s : Service} (hs : s.enabled cfg) :
    (s.instanceName cfg).length ≤ maxLabel := by
  cases s with
  | riousbprint => exact h.printerName_le hs
  | pdlDatastream => exact h.printerName_le hs
  | _ => exact h.instanceName_le

theorem label_ne (h : Accepted cfg) (ho : o.Used cfg) : o.label cfg ≠ [] := by
  cases o with
  | enumeration => exact (by decide : ascii "_services" ≠ [])
  | service s => cases s <;> unfold Owner.label <;> dsimp only <;> decide
  | inst s => exact h.instance_ne ho
  | host => exact h.hostLabel_ne

theorem label_le (h : Accepted cfg) (ho : o.Used cfg) : (o.label cfg).length ≤ maxLabel := by
  cases o with
  | enumeration => exact (by decide : (ascii "_services").length ≤ maxLabel)
  | service s => cases s <;> unfold Owner.label <;> dsimp only <;> decide
  | inst s => exact h.instance_le ho
  | host => exact h.hostLabel_le

/-- The names of an accepted configuration are well formed. -/
theorem text_encodes (h : Accepted cfg) (ho : o.Used cfg) : (wireName (o.text cfg)).isSome := by
  rw [Owner.text, wireName_dotted _ (h.label_ne ho) (h.label_le ho), Option.isSome_map]
  exact o.rest_encodes

theorem text_length (h : Accepted cfg) (ho : o.Used cfg) : (o.text cfg).length < maxName := by
  have hlabel := h.label_le ho
  have hescaped := length_escapeLabel_le (o.label cfg)
  have hrest : o.rest.length ≤ 27 := by
    unfold Owner.rest
    cases o with
    | inst s => cases s <;> decide
    | _ => dsimp only; decide
  unfold maxLabel at hlabel
  simp only [Owner.text, dotted, List.length_append, List.length_cons, maxName]
  omega

theorem fqdn (h : Accepted cfg) {s : Service} (hs : s.enabled cfg) :
    s.buildFqdn cfg = some ((Owner.inst s).text cfg) :=
  buildInstanceFqdn_dotted (h.instance_ne hs) (h.instance_le hs) (by cases s <;> decide)

end Accepted

end TimeCapsule.Mdns
