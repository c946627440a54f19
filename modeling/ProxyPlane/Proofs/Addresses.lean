import ProxyPlane.Proofs.Codecs
import ProxyPlane.Proofs.Servers

/-!
# The host of an address

The address of a node is a host, and a port behind a colon if there is one.  A link that is a URL
always has a host: a name is not empty and has no colon, and the text of an address of version 4 or
6 does not begin with a lone colon.  The other two kinds of link give an address as they find it.
The document of a `vmess` link may leave its host out, and nothing need stand behind the `@` of a
server in Base64.

## What is here

* `hostPart`, `hostPart_eq_nil_iff` — the text before the port, and when it is empty.
* `Host.IsNamed`, `Url.isNamed_of_parse?` — the host of a URL is a proper one.
* `Endpoint.hostPart_ne_nil_of_ofUrl` — so its address has a host.
* `Hostless`, `hostPart_eq_nil_iff_hostless` — the links that are accepted with no host are those of
  the other two kinds in which none is written.
-/

set_option autoImplicit false
namespace ProxyPlane

/-! ## Hosts and ports -/

/-- The text before the last colon, or the whole text when there is none. -/
def hostPart (s : List Char) : List Char :=
  if s.contains ':' then ((s.reverse.dropWhile (· != ':')).drop 1).reverse else s

theorem hostPart_of_notMem {s : List Char} (h : ':' ∉ s) : hostPart s = s :=
  if_neg (by rwa [List.contains_iff_mem])

theorem hostPart_append {host port : List Char} (h : ':' ∉ port) :
    hostPart (host ++ ':' :: port) = host := by
  have hport : ∀ c ∈ port.reverse, (c != ':') = true := by
    intro c hc
    rw [bne_iff_ne]
    rintro rfl
    exact h (List.mem_reverse.1 hc)
  have hdrop := (takeWhile_append_stop (r := ':' :: host.reverse) hport (by simp)).2
  have hsplit : (host ++ ':' :: port).reverse = port.reverse ++ ':' :: host.reverse := by simp
  rw [hostPart, if_pos (by simp), hsplit, hdrop, List.drop_one, List.tail_cons,
    List.reverse_reverse]

/-- A text is empty, or a port by itself. -/
def LacksHost (s : List Char) : Prop := s = [] ∨ ∃ port, s = ':' :: port ∧ ':' ∉ port

/-- A text with a colon is a host and a port. -/
theorem exists_host_port {s : List Char} (h : ':' ∈ s) :
    ∃ host port, s = host ++ ':' :: port ∧ ':' ∉ port := by
  obtain ⟨port, host, hsplit, hport⟩ := List.eq_append_cons_of_mem (List.mem_reverse.2 h)
  refine ⟨host.reverse, port.reverse, ?_, fun hmem => hport (List.mem_reverse.1 hmem)⟩
  rw [← List.reverse_reverse s, hsplit]
  simp

theorem hostPart_eq_nil_iff {s : List Char} : hostPart s = [] ↔ LacksHost s := by
  constructor
  · intro hnil
    by_cases h : ':' ∈ s
    · obtain ⟨host, port, rfl, hport⟩ := exists_host_port h
      rw [hostPart_append hport] at hnil
      exact .inr ⟨port, by rw [hnil, List.nil_append], hport⟩
    · exact .inl ((hostPart_of_notMem h).symm.trans hnil)
  · rintro (rfl | ⟨port, rfl, hport⟩)
    · rfl
    · exact @hostPart_append [] port hport

theorem not_lacksHost_of_head {c : Char} {s : List Char} (hc : c ≠ ':') : ¬ LacksHost (c :: s) := by
  rintro (h | ⟨port, h, -⟩)
  · cases h
  · exact hc (List.cons.inj h).1

theorem lacksHost_append_iff {host port : List Char} :
    LacksHost (host ++ ':' :: port) ↔ host = [] ∧ ':' ∉ port := by
  constructor
  · rintro (h | ⟨rest, h, hrest⟩)
    · simp at h
    · cases host with
      | nil =>
        cases h
        exact ⟨rfl, hrest⟩
      | cons c host =>
        cases h
        simp at hrest
  · rintro ⟨rfl, hport⟩
    exact .inr ⟨port, rfl, hport⟩

/-! ## The host of a URL -/

/-- A host that is written as something: a name is not empty and has no colon, and an address has
pieces. -/
def Host.IsNamed : Host → Prop
  | .name text => text ≠ [] ∧ ':' ∉ text
  | .ipv4 _ => True
  | .ipv6 pieces => pieces ≠ []

/-- An address has eight pieces, and so at least one. -/
theorem Ipv6.ne_nil_of_parse? {s : List Char} {pieces : List Nat} (h : parse? s = some pieces) :
    pieces ≠ [] := by
  unfold parse? at h
  dsimp only at h
  split at h
  case h_2 => cases h
  all_goals
    obtain ⟨⟨found, gap⟩, -, h⟩ := Option.bind_eq_some_iff.1 h
    cases gap with
    | some g =>
      by_cases hlength : found.length ≤ 7
      · have hzeros : 8 - found.length ≠ 0 := by omega
        cases (if_pos hlength).symm.trans h
        simp [hzeros]
      · cases (if_neg hlength).symm.trans h
    | none =>
      by_cases hlength : found.length = 8
      · cases (if_pos hlength).symm.trans h
        rintro rfl
        cases hlength
      · cases (if_neg hlength).symm.trans h

namespace Host

theorem isNamed_of_ofBrackets? {s : List Char} {host : Host} (h : ofBrackets? s = some host) :
    host.IsNamed := by
  rw [ofBrackets?] at h
  split at h
  · obtain ⟨pieces, hpieces, rfl⟩ := Option.map_eq_some_iff.1 h
    exact Ipv6.ne_nil_of_parse? hpieces
  · cases h

/-- The name of a domain is not empty and has no colon. -/
theorem isNamed_of_domain? {s name : List Char} (h : domain? s = some name) :
    (Host.name name).IsNamed := by
  rw [domain?] at h
  split at h
  · cases h
  · next hplain =>
    rw [Bool.or_eq_true, not_or, List.isEmpty_iff, List.any_eq_true, not_exists] at hplain
    split at h
    · cases h
      refine ⟨by simpa using hplain.1, fun hmem => hplain.2 ':' ⟨hmem, by decide⟩⟩
    · cases h

theorem isNamed_of_ofSpecial? {s : List Char} {host : Host} (h : ofSpecial? s = some host) :
    host.IsNamed := by
  rw [ofSpecial?] at h
  split at h
  · exact isNamed_of_ofBrackets? h
  · obtain ⟨decoded, -, h⟩ := Option.bind_eq_some_iff.1 h
    obtain ⟨name, hname, h⟩ := Option.bind_eq_some_iff.1 h
    split at h
    · obtain ⟨address, -, rfl⟩ := Option.map_eq_some_iff.1 h
      trivial
    · cases h
      exact isNamed_of_domain? hname

/-- No character is escaped into a colon. -/
theorem colon_notMem_encode {keep : Char → Bool} {s : List Char} (h : ':' ∉ s) :
    ':' ∉ s.flatMap (Percent.encodeChar keep) := by
  intro hmem
  obtain ⟨c, hc, hmem⟩ := List.mem_flatMap.1 hmem
  rw [Percent.encodeChar] at hmem
  split at hmem
  · exact h (List.mem_singleton.1 hmem ▸ hc)
  · exact absurd (Percent.isMild_of_mem_escapes hmem) (by decide)

theorem isNamed_of_ofOpaque? {s : List Char} {host : Host} (h : ofOpaque? s = some host)
    (hne : host ≠ .name []) : host.IsNamed := by
  rw [ofOpaque?] at h
  split at h
  · exact isNamed_of_ofBrackets? h
  · split at h
    · cases h
    · next hplain =>
      cases h
      refine ⟨fun hnil => hne (congrArg Host.name hnil), colon_notMem_encode fun hmem => hplain ?_⟩
      exact List.any_eq_true.2 ⟨':', hmem, by decide⟩

end Host

namespace Url

/-- An authority has the host that it reads, unless that is an empty name. -/
theorem host_of_readAuthority? {scheme : String} {atEnd : Bool} {s rest : List Char}
    {a : Authority} (h : readAuthority? scheme atEnd s = some (a, rest)) :
    ∃ text found, (Host.ofSpecial? text = some found ∨ Host.ofOpaque? text = some found) ∧
      a.host = if found ≠ .name [] then some found else none := by
  unfold readAuthority? at h
  dsimp only at h
  split at h
  · cases h
  split at h
  all_goals
    obtain ⟨found, hfound, h⟩ := Option.bind_eq_some_iff.1 h
    split at h
    · cases h
    refine ⟨_, found, by first | exact .inl hfound | exact .inr hfound, ?_⟩
    split at h
    all_goals
      obtain ⟨port, -, h⟩ := Option.bind_eq_some_iff.1 h
      cases h
      rfl

theorem isNamed_of_readAuthority? {scheme : String} {atEnd : Bool} {s rest : List Char}
    {a : Authority} {host : Host} (h : readAuthority? scheme atEnd s = some (a, rest))
    (hhost : a.host = some host) : host.IsNamed := by
  obtain ⟨text, found, hfound, ha⟩ := host_of_readAuthority? h
  rw [ha] at hhost
  split at hhost
  · next hne =>
    cases hhost
    obtain hfound | hfound := hfound
    · exact Host.isNamed_of_ofSpecial? hfound
    · exact Host.isNamed_of_ofOpaque? hfound hne
  · cases hhost

theorem isNamed_of_ofAuthority? {scheme : String} {s : List Char} {url : Url} {host : Host}
    (h : ofAuthority? scheme s = some url) (hhost : url.host = some host) : host.IsNamed := by
  obtain ⟨⟨a, rest⟩, ha, h⟩ := Option.bind_eq_some_iff.1 h
  cases h
  exact isNamed_of_readAuthority? ha hhost

theorem isNamed_of_ofFile? {s : List Char} {url : Url} {host : Host}
    (h : ofFile? s = some url) (hhost : url.host = some host) : host.IsNamed := by
  unfold ofFile? at h
  dsimp only at h
  split at h
  · split at h
    · split at h
      · cases h
        cases hhost
      split at h
      · cases h
        cases hhost
      obtain ⟨found, hfound, h⟩ := Option.bind_eq_some_iff.1 h
      cases h
      change (if found = .name "localhost".toList then none else some found) = some host at hhost
      split at hhost
      · cases hhost
      · cases hhost
        exact Host.isNamed_of_ofSpecial? hfound
    · cases h
      cases hhost
  · cases h
    cases hhost

/-- **The host of a URL is a proper one.** -/
theorem isNamed_of_parse? {text : String} {url : Url} {host : Host} (h : parse? text = some url)
    (hhost : url.host = some host) : host.IsNamed := by
  obtain ⟨⟨scheme, rest⟩, -, h⟩ := Option.bind_eq_some_iff.1 h
  dsimp only at h
  split at h
  · exact isNamed_of_ofFile? h hhost
  split at h
  · exact isNamed_of_ofAuthority? h hhost
  split at h
  · exact isNamed_of_ofAuthority? h hhost
  · cases h
    cases hhost

end Url

/-! ## The address of a URL -/

/-- Digits in any base have no colon among them. -/
theorem colon_notMem_toDigits {base : Nat} (hbase : 1 < base) (n : Nat) :
    ':' ∉ Nat.toDigits base n := by
  induction n using Nat.strongRecOn with
  | ind n ih =>
    have hdigit : ∀ d : Nat, ':' ∉ [d.digitChar] := fun d h =>
      Nat.digitChar_ne ':' rfl (List.mem_singleton.1 h).symm
    by_cases h : n < base
    · rw [Nat.toDigits_of_lt_base h]
      exact hdigit n
    · rw [Nat.toDigits_of_base_le hbase (Nat.le_of_not_lt h), List.mem_append]
      rintro (hmem | hmem)
      · exact ih _ (Nat.div_lt_self (by omega) hbase) hmem
      · exact hdigit _ hmem

/-- What begins with a number has a host. -/
theorem not_lacksHost_toDigits {base : Nat} (hbase : 1 < base) (n : Nat) (rest : List Char) :
    ¬ LacksHost (Nat.toDigits base n ++ rest) := by
  have hcolon := colon_notMem_toDigits hbase n
  cases hdigits : Nat.toDigits base n with
  | nil => exact absurd hdigits Nat.toDigits_ne_nil
  | cons c digits =>
    rw [hdigits] at hcolon
    exact not_lacksHost_of_head fun hc => hcolon (hc ▸ List.mem_cons_self)

/-- What is joined begins with the first part. -/
theorem exists_intercalate (glue a : String) (l : List String) :
    ∃ rest, (String.intercalate glue (a :: l)).toList = a.toList ++ rest := by
  cases l with
  | nil => exact ⟨[], by simp⟩
  | cons b l =>
    rw [String.intercalate_cons_cons, String.toList_append, String.toList_append,
      List.append_assoc]
    exact ⟨_, rfl⟩

theorem Ipv4.not_lacksHost_render (address : Nat) : ¬ LacksHost (render address).toList := by
  obtain ⟨rest, hrest⟩ := exists_intercalate "." (toString (address / Nat.pow 256 3 % 256))
    ([2, 1, 0].map fun i => toString (address / Nat.pow 256 i % 256))
  rw [render, List.map_cons, hrest, Nat.toString_eq_repr, Nat.toList_repr]
  exact not_lacksHost_toDigits (by decide) _ _

theorem Ipv6.not_lacksHost_renderPieces {pieces : List Nat} (h : pieces ≠ []) :
    ¬ LacksHost (renderPieces pieces).toList := by
  cases pieces with
  | nil => exact absurd rfl h
  | cons n pieces =>
    obtain ⟨rest, hrest⟩ := exists_intercalate ":" (renderPiece n) (pieces.map renderPiece)
    rw [renderPieces, List.map_cons, hrest, renderPiece, String.toList_ofList]
    exact not_lacksHost_toDigits (by decide) _ _

/-- An address that is shortened has two colons side by side. -/
theorem Ipv6.not_lacksHost_render {pieces : List Nat} (h : pieces ≠ []) :
    ¬ LacksHost (render pieces).toList := by
  rw [render]
  split
  · exact not_lacksHost_renderPieces h
  · rw [String.toList_append, String.toList_append, List.append_assoc]
    exact fun hlacks => (lacksHost_append_iff.1 hlacks).2 List.mem_cons_self

namespace Endpoint

/-- The text of a proper host is not taken for a port. -/
theorem not_lacksHost_hostText {host : Host} (h : host.IsNamed) :
    ¬ LacksHost (hostText host).toList := by
  cases host with
  | name text =>
    rw [hostText, String.toList_ofList]
    rintro (hnil | ⟨port, rfl, -⟩)
    · exact h.1 hnil
    · exact h.2 List.mem_cons_self
  | ipv4 address => exact Ipv4.not_lacksHost_render address
  | ipv6 pieces => exact Ipv6.not_lacksHost_render h

theorem toList_joined (host port : String) :
    (host ++ ":" ++ port).toList = host.toList ++ ':' :: port.toList := by
  rw [String.toList_append, String.toList_append, List.append_assoc]
  rfl

theorem not_lacksHost_addressText {host : Host} (h : host.IsNamed) (port : Option Nat) :
    ¬ LacksHost (addressText host port).toList := by
  have hhost := not_lacksHost_hostText h
  have hjoined : ∀ port : String, ¬ LacksHost (hostText host ++ ":" ++ port).toList := by
    intro port
    rw [toList_joined, lacksHost_append_iff]
    exact fun hnil => hhost (.inl hnil.1)
  cases port with
  | none => exact hhost
  | some p =>
    cases host with
    | name text => exact hjoined (toString p)
    | ipv4 address => exact hjoined (toString p)
    | ipv6 pieces =>
      rw [addressText, String.append_assoc, String.append_assoc, String.toList_append]
      exact not_lacksHost_of_head (by decide)

/-- **A link that is a URL has a host in its address.** -/
theorem not_lacksHost_of_ofUrl {link scheme : String} {e : Endpoint}
    (h : ofUrl link scheme = .ok e) : ¬ LacksHost e.address.toList := by
  rw [ofUrl] at h
  split at h
  · cases h
  split at h
  · cases h
  next url hurl _ host hhost =>
    cases h
    exact not_lacksHost_addressText (Url.isNamed_of_parse? hurl hhost) _

/-! ## The other kinds of link -/

/-- What is read of the document of a `vmess` link. -/
theorem ofVmess?_eq_some_iff {body : List Char} {e : Endpoint} :
    ofVmess? body = some e ↔ ∃ bytes name host port, Base64.decodeAny? body = some bytes ∧
      vmessShape.parse bytes = .ok (name, host, port, ()) ∧
      e = ⟨name.getD "", if (portText (port.getD .null)).isEmpty then host.getD "" else
        host.getD "" ++ ":" ++ portText (port.getD .null), "vmess"⟩ := by
  constructor
  · intro h
    obtain ⟨bytes, hbytes, h⟩ := Option.bind_eq_some_iff.1 h
    obtain ⟨⟨name, host, port, _⟩, hparse, h⟩ := Option.bind_eq_some_iff.1 h
    refine ⟨bytes, name, host, port, hbytes, ?_, (Option.some.inj h).symm⟩
    cases hresult : vmessShape.parse bytes with
    | error fault =>
      rw [hresult] at hparse
      cases hparse
    | ok found =>
      rw [hresult] at hparse
      exact congrArg Except.ok (Option.some.inj hparse)
  · rintro ⟨bytes, name, host, port, hbytes, hparse, rfl⟩
    rw [ofVmess?, hbytes]
    simp only [hparse, bind, Option.bind_some, Except.toOption, pure]
    rfl

/-- A host and a port lack a host when there is neither, or a port alone; a host by itself may read
like a port. -/
theorem lacksHost_document_iff {host port : String} :
    LacksHost (if port.isEmpty then host else host ++ ":" ++ port).toList ↔
      (host = "" ∧ ':' ∉ port.toList) ∨ (port = "" ∧ LacksHost host.toList) := by
  split
  · next hport =>
    rw [String.isEmpty_iff.1 hport]
    refine ⟨fun h => .inr ⟨rfl, h⟩, ?_⟩
    rintro (⟨rfl, -⟩ | ⟨-, h⟩)
    · exact .inl rfl
    · exact h
  · next hport =>
    have hne : port ≠ "" := fun h => hport (String.isEmpty_iff.2 h)
    rw [toList_joined, lacksHost_append_iff, String.toList_eq_nil_iff]
    exact ⟨.inl, fun h => h.resolve_right fun h => hne h.1⟩

/-- A `vmess` link whose document has no host in front of its port. -/
def NoHostInDocument (body : List Char) : Prop :=
  ∃ bytes name host port, Base64.decodeAny? body = some bytes ∧
    vmessShape.parse bytes = .ok (name, host, port, ()) ∧
    ((host.getD "" = "" ∧ ':' ∉ (portText (port.getD .null)).toList) ∨
      (portText (port.getD .null) = "" ∧ LacksHost (host.getD "").toList))

theorem lacksHost_iff_of_ofVmess? {body : List Char} {e : Endpoint} (h : ofVmess? body = some e) :
    LacksHost e.address.toList ↔ NoHostInDocument body := by
  obtain ⟨bytes, name, host, port, hbytes, hparse, rfl⟩ := ofVmess?_eq_some_iff.1 h
  rw [lacksHost_document_iff]
  constructor
  · exact fun hlacks => ⟨bytes, name, host, port, hbytes, hparse, hlacks⟩
  · rintro ⟨bytes', name', host', port', hbytes', hparse', hlacks⟩
    cases hbytes.symm.trans hbytes'
    cases hparse.symm.trans hparse'
    exact hlacks

theorem not_noHostInDocument {body : List Char} (h : ofVmess? body = none) :
    ¬ NoHostInDocument body := by
  rintro ⟨bytes, name, host, port, hbytes, hparse, -⟩
  rw [ofVmess?_eq_some_iff.2 ⟨bytes, name, host, port, hbytes, hparse, rfl⟩] at h
  cases h

/-- An `ss` link in Base64 with no host behind its last `@`. -/
def NoHostInServer (body : List Char) : Prop :=
  '@' ∉ body.takeWhile (· != '#') ∧ ∃ text address,
    (Base64.decodeAny? (body.takeWhile (· != '#'))).bind Utf8.decode? = some text ∧
    afterAt? text = some address ∧ LacksHost address

theorem lacksHost_iff_of_ofEncodedServer {body : List Char} {e : Endpoint}
    (hat : '@' ∉ body.takeWhile (· != '#')) (h : ofEncodedServer body = .ok e) :
    LacksHost e.address.toList ↔ NoHostInServer body := by
  rw [ofEncodedServer] at h
  split at h
  · cases h
  next text htext =>
  split at h
  · cases h
  next address haddress =>
  cases h
  rw [String.toList_ofList]
  constructor
  · exact fun hlacks => ⟨hat, text, address, htext, haddress, hlacks⟩
  · rintro ⟨-, text', address', htext', haddress', hlacks⟩
    cases htext.symm.trans htext'
    cases haddress.symm.trans haddress'
    exact hlacks

end Endpoint

/-! ## Links without a host -/

/-- The links in which no host is written. -/
def Hostless (link : String) : Prop :=
  ∃ scheme body, splitLink? link.toList = some (scheme, body) ∧
    ((String.ofList (scheme.map Char.toLower) = "vmess" ∧ Endpoint.NoHostInDocument body) ∨
      (String.ofList (scheme.map Char.toLower) = "ss" ∧ Endpoint.NoHostInServer body))

theorem hostless_iff {link : String} {scheme body : List Char}
    (h : splitLink? link.toList = some (scheme, body)) :
    Hostless link ↔
      ((String.ofList (scheme.map Char.toLower) = "vmess" ∧ Endpoint.NoHostInDocument body) ∨
        (String.ofList (scheme.map Char.toLower) = "ss" ∧ Endpoint.NoHostInServer body)) := by
  constructor
  · rintro ⟨scheme', body', h', hkind⟩
    cases h.symm.trans h'
    exact hkind
  · exact fun hkind => ⟨scheme, body, h, hkind⟩

/-- **A link is accepted without a host just when none is written in it**, which is never so in a
URL. -/
theorem hostPart_eq_nil_iff_hostless {link : String} {e : Endpoint} (h : readLink link = .ok e) :
    hostPart e.address.toList = [] ↔ Hostless link := by
  rw [hostPart_eq_nil_iff]
  have hlink : Endpoint.ofLink link = .ok e := by
    rw [readLink] at h
    split at h
    · cases h
      assumption
    · cases h
  rw [Endpoint.ofLink] at hlink
  split at hlink
  · cases hlink
  next scheme body hsplit =>
  rw [hostless_iff hsplit]
  split at hlink
  · cases hlink
  dsimp only at hlink
  generalize String.ofList (scheme.map Char.toLower) = name at hlink ⊢
  split at hlink
  · next hvmess =>
    subst hvmess
    cases hfound : Endpoint.ofVmess? body with
    | some found =>
      rw [hfound] at hlink
      cases hlink
      simp [Endpoint.lacksHost_iff_of_ofVmess? hfound]
    | none =>
      rw [hfound] at hlink
      simp [Endpoint.not_lacksHost_of_ofUrl hlink, Endpoint.not_noHostInDocument hfound]
  split at hlink
  · next hss =>
    subst hss
    split at hlink
    · next hat =>
      have hserver : ¬ Endpoint.NoHostInServer body := fun h => h.1 (List.contains_iff_mem.1 hat)
      simp [Endpoint.not_lacksHost_of_ofUrl hlink, hserver]
    · next hat =>
      have hat' : '@' ∉ body.takeWhile (· != '#') := fun h => hat (List.contains_iff_mem.2 h)
      simp [Endpoint.lacksHost_iff_of_ofEncodedServer hat' hlink]
  · next hvmess hss =>
    simp [Endpoint.not_lacksHost_of_ofUrl hlink, hvmess, hss]

/-- A document with a port alone, a server in Base64 with nothing behind its `@`, and a URL in the
place of a document. -/
theorem hostless_of_three_links :
    (readLink "vmess://eyJwb3J0Ijo0NDN9" = .ok ⟨"", ":443", "vmess"⟩ ∧
      Hostless "vmess://eyJwb3J0Ijo0NDN9") ∧
    (readLink "ss://aEA=#x" = .ok ⟨"x", "", "shadowsocks"⟩ ∧ Hostless "ss://aEA=#x") ∧
    (readLink "vmess://[::1]:443" = .ok ⟨"", "[::1]:443", "vmess"⟩ ∧
      ¬ Hostless "vmess://[::1]:443") := by
  have hport : readLink "vmess://eyJwb3J0Ijo0NDN9" = .ok ⟨"", ":443", "vmess"⟩ := by decide +kernel
  have hserver : readLink "ss://aEA=#x" = .ok ⟨"x", "", "shadowsocks"⟩ := by decide +kernel
  have hurl : readLink "vmess://[::1]:443" = .ok ⟨"", "[::1]:443", "vmess"⟩ := by decide +kernel
  exact ⟨⟨hport, (hostPart_eq_nil_iff_hostless hport).1 (by decide)⟩,
    ⟨hserver, (hostPart_eq_nil_iff_hostless hserver).1 (by decide)⟩,
    ⟨hurl, fun h => absurd ((hostPart_eq_nil_iff_hostless hurl).2 h) (by decide)⟩⟩

/-- An empty document is accepted, and its address is empty. -/
theorem empty_document_accepted :
    ¬ ∀ (link : String) (e : Endpoint), readLink link = .ok e → hostPart e.address.toList ≠ [] := by
  intro h
  exact h "vmess://e30=" ⟨"", "", "vmess"⟩ (by decide +kernel) rfl

end ProxyPlane
