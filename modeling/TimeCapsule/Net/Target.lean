import TimeCapsule.Lib.Trim
import TimeCapsule.Net.Endpoint

/-!
# Targets that are parsed again

A canonical target is stored and parsed by every later operation.  It gives the same user and host again
when its host is in normal form and does not look like anything else.
-/

namespace TimeCapsule.Net

open Lib

/-! ## Characters that are not trimmed -/

section Trimming

variable {c : Char} {t u h : Text}

theorem count_stripText (hc : isPySpace c = false) : (stripText t).count c = t.count c := by
  rw [stripText, count_rdropWhile hc, count_dropWhile hc]

theorem count_stripBrackets (hc : isBracket c = false) : (stripBrackets t).count c = t.count c := by
  rw [stripBrackets, count_rdropWhile hc, count_dropWhile hc]

theorem mem_of_mem_stripText (h : c ∈ stripText t) : c ∈ t :=
  mem_of_mem_dropWhile (mem_of_mem_rdropWhile h)

theorem mem_of_mem_stripBrackets (h : c ∈ stripBrackets t) : c ∈ t :=
  mem_of_mem_dropWhile (mem_of_mem_rdropWhile h)

/-- A text that starts with no space is trimmed at its end only. -/
theorem stripText_of_head (hh : ∀ c, t.head? = some c → isPySpace c = false) :
    stripText t = t.rdropWhile isPySpace := by
  rw [stripText, dropWhile_eq_self hh]

theorem head?_stripText (h : (stripText t).head? = some c) : isPySpace c = false :=
  head?_dropWhile_neg (head?_rdropWhile h)

theorem stripText_stripText (t : Text) : stripText (stripText t) = stripText t := by
  rw [stripText_of_head fun _ => head?_stripText, stripText, List.rdropWhile_idempotent]

end Trimming

/-! ## The library -/

def isAddressChar (c : Char) : Bool :=
  c.isDigit || ('a' ≤ c && c ≤ 'f') || c == ':' || c == '.'

/-- A text as `ip_address` writes it, without a scope. -/
structure Literal (t : Text) : Prop where
  ne_nil : t ≠ []
  chars : ∀ c ∈ t, isAddressChar c = true
  colons : t.count ':' ≠ 1

theorem Literal.notMem {t : Text} (h : Literal t) {c : Char} (hc : isAddressChar c = false) : c ∉ t :=
  fun hmem => by
    have := h.chars c hmem
    rw [hc] at this
    exact nomatch this

/-! ## Normal forms of hosts -/

namespace Env

variable {env : Env}

/-- The zone that the normal form of an address leaves out. -/
def zoneOf (env : Env) (value : Text) : Text :=
  let candidate := stripBrackets (stripText value)
  if env.ipv4Literal candidate = .ok none ∧ (env.ipv6Literal candidate).isSome then
    (stripText candidate).dropWhile (· != '%')
  else []

/-- A normal form is empty, an address, or what is left when the ends are trimmed. -/
inductive Normal (env : Env) (value : Text) : Text → Prop
  | empty : Normal env value []
  | literal {l : Text} (h : Literal l) : Normal env value l
  | trimmed {t : Text} (hzone : env.zoneOf value = [])
      (ht : t = (stripBrackets (stripText value)).rdropWhile (· == '.')) : Normal env value t

theorem Normal.head {value h : Text} (hn : Normal env value h) {c : Char} (hc : h.head? = some c) :
    isBracket c = false := by
  cases hn with
  | empty => exact nomatch hc
  | literal hl =>
    by_contra hbracket
    have hmem : c ∈ h := List.mem_of_head? hc
    rw [Bool.not_eq_false, isBracket, Bool.or_eq_true, beq_iff_eq, beq_iff_eq] at hbracket
    rcases hbracket with rfl | rfl
    · exact hl.notMem (by decide) hmem
    · exact hl.notMem (by decide) hmem
  | trimmed _ ht =>
    subst ht
    exact head?_dropWhile_neg (head?_rdropWhile (head?_rdropWhile hc))

/-- A character that is never trimmed stands in the normal form as often as in the host. -/
theorem Normal.count {value h : Text} (hn : Normal env value h) (hne : h ≠ []) (hl : ¬ Literal h)
    {c : Char} (hspace : isPySpace c = false) (hbracket : isBracket c = false) (hdot : c ≠ '.') :
    h.count c = value.count c := by
  cases hn with
  | empty => exact absurd rfl hne
  | literal h => exact absurd h hl
  | trimmed _ ht =>
    rw [ht, count_rdropWhile (by simpa using hdot), count_stripBrackets hbracket, count_stripText hspace]

theorem Normal.subset {value h : Text} (hn : Normal env value h) (hl : ¬ Literal h) {c : Char}
    (hc : c ∈ h) : c ∈ value := by
  cases hn with
  | empty => exact absurd hc List.not_mem_nil
  | literal h => exact absurd h hl
  | trimmed _ ht =>
    subst ht
    exact mem_of_mem_stripText (mem_of_mem_stripBrackets (mem_of_mem_rdropWhile hc))

/-- The target gives its user and host again, and no port. -/
def GivesAgain (env : Env) (user host : Text) (target : Text) : Prop :=
  ∃ again, env.parseEndpoint target = .ok again ∧ again.user = user ∧ again.host = host ∧
    again.port = none ∧ again.invalidPort = none

/-- The host is a normal form without a separator, and the user starts with no blank. -/
structure Plain (env : Env) (user host : Text) : Prop where
  normal : env.normalizeEndpointHost host = .ok host
  no_slash : '/' ∉ host
  no_at : '@' ∉ host
  colons : host.count ':' ≠ 1
  no_blank : ∀ c, user.head? = some c → isPySpace c = false

section Again

variable {user host : Text}

end Again

/-! ## Zones -/

/-- The host that the target names, with its zone. -/
def namedHost (env : Env) (value host : Text) : Text := host ++ env.zoneOf value

/-- What is claimed of a target: it is canonical, and gives the user and the host with its zone. -/
def Stable (env : Env) (value : Text) : Prop :=
  ∀ parts host target, env.endpointParts (stripText value) = .ok parts →
    env.normalizeEndpointHost parts.host = .ok host → env.canonicalSshTarget value = .ok target →
    target ≠ [] → env.canonicalSshTarget target = .ok target ∧
      GivesAgain env (userOf parts) (env.namedHost parts.host host) target

/-- A port other than 22, or one that cannot be read. -/
def NamesOtherPort (endpoint : Endpoint) : Prop :=
  endpoint.invalidPort ≠ none ∨ endpoint.port ≠ none ∧ endpoint.port ≠ some 22

/-- A target with another port is refused. -/
def Refused (env : Env) (f : Text → Except String Text) (value : Text) : Prop :=
  ∀ endpoint, env.parseEndpoint value = .ok endpoint → NamesOtherPort endpoint → endpoint.host ≠ [] →
    ∃ error, f value = .error error

end Env

end TimeCapsule.Net
