import TimeCapsule.Mdns.Agreement
import TimeCapsule.Mdns.PacketBuffer
import TimeCapsule.Mdns.Response

/-!
# What the packets of an announcement carry

Each service, and the addresses of the link, are a group of records.  Every packet is read back as the
records of some groups, and the packets together have every group once, if the core groups fit one
packet.
-/

namespace TimeCapsule.Mdns

open Lib

/-- The groups of records, in the order in which they are appended. -/
def announcedGroups (cfg : Config) (link : LinkContext) (ttl : UInt32) : List (List Record) :=
  [Service.smb.announced cfg ttl, Service.afp.announced cfg ttl,
    linkAddresses cfg.hostFqdn link true true ttl, Service.adisk.announced cfg ttl,
    Service.deviceInfo.announced cfg ttl] ++ flushedServices.map (·.announced cfg ttl)

/-- The packet is read as a response with these records: its header counts them, and nothing is behind
them. -/
def Carries (packet : Bytes) (records : List Record) : Prop :=
  packet.length ≤ bufSize ∧ ∃ answers, List.Forall₂ SameRecord answers records ∧
    readMessage packet = some ⟨0, dnsFlagQr ||| dnsFlagAa, [], answers, 0, 0, []⟩

/-- The labels that are made of options have no zero bytes. -/
structure ZeroFree (cfg : Config) : Prop where
  instanceName : 0 ∉ cfg.instanceName
  hostLabel : 0 ∉ cfg.hostLabel
  printerName : isRiousbprintEnabled cfg → 0 ∉ cfg.riousbprintInstanceName

theorem zero_not_mem_of_label {value : Bytes} (h : validateGeneratedDnsLabel value) : 0 ∉ value := by
  simp only [validateGeneratedDnsLabel, validateDnsLabelText, Bool.and_eq_true, Bool.not_eq_true',
    List.any_eq_false] at h
  intro hzero
  exact h.2 0 hzero (by decide)

theorem validatePrinter_zeroFree {cfg cfg' : Config} {usbCmd : Bytes}
    (h : validatePrinter cfg usbCmd = .ok cfg') (henabled : isRiousbprintEnabled cfg') :
    0 ∉ cfg'.riousbprintInstanceName := by
  obtain ⟨⟨cmd, rfl⟩, -⟩ := validatePrinter_eq_ok h
  unfold validatePrinter at h
  split at h
  · next hdisabled =>
    rw [Bool.not_eq_true'] at hdisabled
    exact absurd (henabled.symm.trans hdisabled) (by decide)
  split at h
  · cases h
  next hlabel =>
  rw [Bool.not_eq_true', Bool.not_eq_false] at hlabel
  exact zero_not_mem_of_label hlabel

theorem validateConfig_zeroFree {cfg cfg' : Config} {rows : List AdiskShareRow} {usbCmd : Bytes}
    (h : validateConfig cfg rows usbCmd = .ok cfg') : ZeroFree cfg' := by
  unfold validateConfig at h
  rw [ite_error_eq_ok, ite_error_eq_ok] at h
  obtain ⟨-, hlabels, h⟩ := h
  obtain ⟨withDisks, hdisks, h⟩ := bind_eq_ok.mp h
  rw [elim_eq_ok] at hdisks
  rw [ite_error_eq_ok, ite_error_eq_ok] at h
  obtain ⟨-, -, h⟩ := h
  obtain ⟨withPrinter, hprinter, h⟩ := bind_eq_ok.mp h
  rw [ite_error_eq_ok] at h
  obtain ⟨-, h⟩ := h
  obtain ⟨fqdn, -, h⟩ := bind_eq_ok.mp h
  obtain rfl := Except.ok.inj h
  obtain ⟨-, heq⟩ := foldlM_addAdiskDiskConfig (by simp) hdisks
  obtain ⟨⟨cmd, hcmd⟩, -⟩ := validatePrinter_eq_ok hprinter
  simp only [Bool.or_eq_true, Bool.not_eq_true', not_or, Bool.not_eq_false] at hlabels
  have hinstance : withPrinter.instanceName = cfg.instanceName := by rw [hcmd, heq]
  have hhost : withPrinter.hostLabel = cfg.hostLabel := by rw [hcmd, heq]
  have hname : isRiousbprintEnabled withPrinter → 0 ∉ withPrinter.riousbprintInstanceName :=
    validatePrinter_zeroFree hprinter
  exact ⟨hinstance ▸ zero_not_mem_of_label hlabels.1, hhost ▸ zero_not_mem_of_label hlabels.2, hname⟩

section Zero

variable {cfg : Config} {link : LinkContext} {ttl : UInt32} {o : Owner}

theorem ZeroFree.scoped (h : ZeroFree cfg) (scope : MdnsServiceScope) :
    ZeroFree (mdnsConfigForScope cfg scope) := by
  cases scope with
  | lan => exact h
  | wan =>
    have hprinter : ¬isRiousbprintEnabled (mdnsConfigForScope cfg .wan) := by
      have hdisabled := enabled_wan cfg .riousbprint
      rw [show isRiousbprintEnabled (mdnsConfigForScope cfg .wan) = false from hdisabled]
      exact Bool.false_ne_true
    refine ⟨?_, ?_, fun henabled => absurd henabled hprinter⟩
    · unfold mdnsConfigForScope
      dsimp only
      split <;> exact h.instanceName
    · unfold mdnsConfigForScope
      dsimp only
      split <;> exact h.hostLabel

theorem ZeroFree.text (h : ZeroFree cfg) (ho : o.Used cfg) : 0 ∉ o.text cfg := by
  have hlabel : 0 ∉ o.label cfg := by
    unfold Owner.label
    cases o with
    | enumeration => dsimp only; decide
    | service s => cases s <;> (dsimp only; decide)
    | host => exact h.hostLabel
    | inst s =>
      cases s
      case riousbprint => exact h.printerName ho
      case pdlDatastream => exact h.printerName ho
      all_goals exact h.instanceName
  have hrest : 0 ∉ o.rest := by
    unfold Owner.rest
    cases o with
    | inst s => cases s <;> decide
    | _ => dsimp only; decide
  unfold Owner.text dotted
  intro hzero
  rcases List.mem_append.mp hzero with hzero | hzero
  · rcases mem_escapeLabel hzero with hback | hmem
    · exact absurd hback (by decide)
    · exact hlabel hmem
  · rcases List.mem_cons.mp hzero with hdot | hmem
    · exact absurd hdot (by decide)
    · exact hrest hmem

theorem Carries.length_eq {packet : Bytes} {records records' : List Record} (h : Carries packet records)
    (h' : Carries packet records') : records.length = records'.length := by
  obtain ⟨-, answers, hsame, hmessage⟩ := h
  obtain ⟨-, answers', hsame', hmessage'⟩ := h'
  rw [hmessage] at hmessage'
  obtain rfl : answers = answers' := congrArg Message.answers (Option.some.inj hmessage')
  exact hsame.length_eq.symm.trans hsame'.length_eq

end Zero

end TimeCapsule.Mdns
