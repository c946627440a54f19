import ProxyPlane.Proofs.Codecs
import ProxyPlane.Proofs.Document
import ProxyPlane.Proofs.Record
import ProxyPlane.Proofs.Shapes
import ProxyPlane.Store.Error
import ProxyPlane.Subscription.Body

/-!
# Servers as links

A document of servers is imported as links, one for each server, and a link is read again on its
own.  What a provider may write freely — the method, the password, the plugin and the name — goes
into the link as Base64 or as escapes, so that all of it is made of a few mild characters.  None of
them is a delimiter, and a link falls apart where it was put together.

## What is here

* `Url.isMild` — the characters between the delimiters.
* `Url.readAuthority?_of_mild` — credentials, a name and a port are read as they were written.
* `Server.HasPlainHost.parse?_link`, `Server.HasPlainHost.readLink_link` — the link of a server is a
  URL with its host, its port and its name, and is accepted as such.
* `links_of_document` — all links of a document give their servers back.
-/

set_option autoImplicit false
namespace ProxyPlane

/-- A list is taken up to where a property ends, and dropped up to there. -/
theorem takeWhile_append_stop {α : Type} {p : α → Bool} {l r : List α} (hl : ∀ a ∈ l, p a = true)
    (hr : ∀ a ∈ r.head?, p a = false) :
    (l ++ r).takeWhile p = l ∧ (l ++ r).dropWhile p = r := by
  rw [List.takeWhile_append_of_pos hl, List.dropWhile_append_of_pos hl]
  cases r with
  | nil => simp
  | cons a r =>
    have ha : ¬ p a = true := by rw [hr a rfl]; decide
    rw [List.takeWhile_cons_of_neg ha, List.dropWhile_cons_of_neg ha, List.append_nil]
    exact ⟨rfl, rfl⟩

/-- What stands behind the last of some separators. -/
theorem reverse_takeWhile_reverse {d : Char} {l r : List Char} (hr : d ∉ r) :
    ((l ++ d :: r).reverse.takeWhile (· != d)).reverse = r := by
  have hsplit : (l ++ d :: r).reverse = r.reverse ++ d :: l.reverse := by simp
  rw [hsplit, (takeWhile_append_stop (fun c hc => ?_) (fun c hc => ?_)).1, List.reverse_reverse]
  · rw [bne_iff_ne]
    rintro rfl
    exact hr (List.mem_reverse.1 hc)
  · cases hc
    simp

namespace Text

/-- A number is read from its digits when it is within the limit. -/
theorem readNat?_toDigits {limit n : Nat} (h : n ≤ limit) :
    readNat? limit (Nat.toDigits 10 n) = some n := by
  have hdigits := natOfDigits?_toDigits n
  have hsign : ∀ rest, Nat.toDigits 10 n ≠ '+' :: rest := by
    intro rest hplus
    have hmem : '+' ∈ Nat.toDigits 10 n := by simp [hplus]
    exact absurd (isDigit_of_mem_toDigits hmem) (by decide)
  revert hdigits hsign
  generalize Nat.toDigits 10 n = digits
  intro hdigits hsign
  rw [readNat?]
  · simp [hdigits, h]
  · exact hsign

end Text

namespace Url

open Text

/-! ## Mild characters -/

/-- The characters between the delimiters of a link: they stand for themselves in every part of a
URL. -/
def isMild (c : Char) : Bool := Percent.isUnreserved c || c == '%' || c == '='

theorem isMild_of_isAlphanum {c : Char} (h : c.isAlphanum = true) : isMild c = true := by
  simp [isMild, Percent.isUnreserved, h]

theorem isMild_bounds {c : Char} (h : isMild c = true) : 0x20 < c.toNat ∧ c.toNat < 0x7F := by
  simp only [isMild, Percent.isUnreserved, Bool.or_eq_true, beq_iff_eq] at h
  obtain ((((((h | rfl) | rfl) | rfl) | rfl) | rfl) | rfl) := h
  · have hranges := isAlphanum_ranges h
    omega
  all_goals decide

theorem ne_of_isMild {c d : Char} (hc : isMild c = true) (hd : isMild d = false) : c ≠ d := by
  rintro rfl
  rw [hc] at hd
  cases hd

theorem isPlain_of_isMild {c : Char} (h : isMild c = true) : Host.isPlain c = true := by
  have hbounds := isMild_bounds h
  rw [Host.isPlain, Bool.and_eq_true, decide_eq_true_iff, decide_eq_true_iff]
  omega

/-- No mild character is among those that are not. -/
theorem contains_of_isMild {c : Char} (h : isMild c = true) {l : List Char}
    (hl : l.all (fun d => !isMild d) = true) : l.contains c = false := by
  rw [List.contains_eq_mem, decide_eq_false_iff_not]
  intro hc
  have hnot := List.all_eq_true.1 hl c hc
  rw [h] at hnot
  cases hnot

theorem keptInFragment_of_isMild {c : Char} (h : isMild c = true) : keptInFragment c = true := by
  rw [keptInFragment, isPlain_of_isMild h, contains_of_isMild h (by decide)]
  rfl

theorem isForbidden_of_isMild {c : Char} (h : isMild c = true) : Host.isForbidden c = false := by
  have hbounds := isMild_bounds h
  rw [Host.isForbidden, contains_of_isMild h (by decide), Bool.or_false, decide_eq_false_iff_not]
  omega

/-- What is kept is not escaped. -/
theorem escapeText_of_kept {keep : Char → Bool} {s : List Char} (h : ∀ c ∈ s, keep c = true) :
    escapeText keep s = s := by
  have hsingle : s.flatMap (Percent.encodeChar keep) = s.flatMap fun c => [c] :=
    List.flatMap_congr fun c hc => if_pos (h c hc)
  rw [escapeText, hsingle, List.flatMap_singleton']

/-- A mild fragment is not escaped. -/
theorem map_escapeText_of_mild {fragment : Option (List Char)}
    (h : ∀ f ∈ fragment, ∀ c ∈ f, isMild c = true) :
    fragment.map (escapeText keptInFragment) = fragment := by
  cases fragment with
  | none => rfl
  | some f =>
    rw [Option.map_some, escapeText_of_kept fun c hc => keptInFragment_of_isMild (h f rfl c hc)]

/-! ## Authorities -/

theorem readPort?_toDigits {port : Nat} (hport : port ≤ 65535) {scheme : String}
    (hscheme : defaultPort scheme = none) :
    readPort? scheme (Nat.toDigits 10 port) = some (some port, []) := by
  have hdigits := takeWhile_append_stop (r := []) (p := Char.isDigit)
    (fun c hc => isDigit_of_mem_toDigits (n := port) hc) nofun
  rw [List.append_nil] at hdigits
  have hne : (Nat.toDigits 10 port).isEmpty = false :=
    List.isEmpty_eq_false_iff.2 Nat.toDigits_ne_nil
  simp [readPort?, hdigits, hne, Text.readNat?_toDigits hport, hscheme]

section Authority

variable {user host : List Char} {port : Nat} {scheme : String}

theorem ofOpaque?_of_mild (hhost : ∀ c ∈ host, isMild c = true) :
    Host.ofOpaque? host = some (.name host) := by
  have hhead : host.head? ≠ some '[' := by
    intro h
    exact absurd (hhost _ (List.mem_of_head? h)) (by decide)
  have hany : host.any Host.isForbidden = false := by
    rw [List.any_eq_false]
    intro c hc
    rw [isForbidden_of_isMild (hhost c hc)]
    decide
  rw [Host.ofOpaque?, if_neg hhead, hany, if_neg (by decide), ← escapeText,
    escapeText_of_kept fun c hc => isPlain_of_isMild (hhost c hc)]

theorem splitHost_of_mild (hhost : ∀ c ∈ host, isMild c = true) (rest : List Char) :
    splitHost false (host ++ ':' :: rest) = (host, ':' :: rest) := by
  induction host with
  | nil => rfl
  | cons c host ih =>
    obtain ⟨hc, hhost⟩ := List.forall_mem_cons.1 hhost
    rw [List.cons_append, splitHost, if_neg fun h => ne_of_isMild hc rfl h.1,
      if_neg (ne_of_isMild hc rfl), if_neg (ne_of_isMild hc rfl), ih hhost]

theorem splitUser_eq {hostPort : List Char} (h : '@' ∉ hostPort) :
    splitUser (user ++ '@' :: hostPort) = (some user, hostPort) := by
  have hmem : (user ++ '@' :: hostPort).contains '@' = true := by simp
  have hlength : (user ++ '@' :: hostPort).length - hostPort.length - 1 = user.length := by
    rw [List.length_append, List.length_cons]
    omega
  rw [splitUser, if_pos hmem, reverse_takeWhile_reverse h]
  dsimp only
  rw [hlength, List.take_left]

/-- **Credentials, a name and a port are read as they were written.** -/
theorem readAuthority?_of_mild (huser : ∀ c ∈ user, isMild c = true)
    (hhost : ∀ c ∈ host, isMild c = true) (hne : host ≠ []) (hport : port ≤ 65535)
    (hscheme : isSpecialScheme scheme = false) (hdefault : defaultPort scheme = none)
    (atEnd : Bool) :
    readAuthority? scheme atEnd (user ++ '@' :: (host ++ ':' :: Nat.toDigits 10 port)) =
      some (⟨escapeText keptInUser user, [], some (.name host), some port⟩, []) := by
  have hat : '@' ∉ host ++ ':' :: Nat.toDigits 10 port := by
    rw [List.mem_append, List.mem_cons]
    rintro (h | h | h)
    · exact absurd (hhost _ h) (by decide)
    · cases h
    · exact absurd (isDigit_of_mem_toDigits h) (by decide)
  have hcolon : ∀ c ∈ user, (c != ':') = true := fun c hc => by
    simpa using ne_of_isMild (huser c hc) rfl
  have huser' := takeWhile_append_stop (r := []) hcolon nofun
  rw [List.append_nil] at huser'
  have hname : Host.name host ≠ .name [] := fun h => hne (Host.name.inj h)
  simp [readAuthority?, splitUser_eq hat, splitHost_of_mild hhost, ofOpaque?_of_mild hhost,
    hscheme, huser', hne, readPort?_toDigits hport hdefault, escapeText]

end Authority

/-- A URL is what its authority and its tail make of it. -/
theorem ofAuthority?_eq {scheme : String} {s authority after : List Char}
    {query fragment : Option (List Char)} {a : Authority}
    (htail : splitTail s = (authority ++ after, query, fragment))
    (hauthority : ∀ c ∈ authority, endsAuthority (isSpecialScheme scheme) c = false)
    (hafter : ∀ c ∈ after.head?, endsAuthority (isSpecialScheme scheme) c = true)
    (hread : ∀ atEnd, readAuthority? scheme atEnd authority = some (a, [])) :
    ofAuthority? scheme s =
      some (assemble scheme a (readPath (isSpecialScheme scheme) after) query fragment) := by
  have hsplit := takeWhile_append_stop (l := authority) (r := after)
    (p := fun c => !endsAuthority (isSpecialScheme scheme) c)
    (fun c hc => by rw [hauthority c hc]; rfl) (fun c hc => by rw [hafter c hc]; rfl)
  rw [ofAuthority?, htail]
  simp only [hsplit, hread, bind, Option.bind_some, List.nil_append, pure]

/-- A scheme that is not special, and two slashes, are followed by an authority. -/
theorem parse?_eq {text scheme : String} {body : List Char}
    (hsplit : splitScheme? (clean text.toList) = some (scheme, '/' :: '/' :: body))
    (hspecial : isSpecialScheme scheme = false) : parse? text = ofAuthority? scheme body := by
  have hfile : scheme ≠ "file" := by
    rintro rfl
    exact absurd hspecial (by decide)
  rw [parse?, hsplit]
  simp [hfile, hspecial]

/-- A text falls apart into path, query and fragment where it was put together. -/
theorem splitTail_eq {path : List Char} {query fragment : Option (List Char)}
    (hpath : ∀ c ∈ path, c ≠ '?' ∧ c ≠ '#') (hquery : ∀ q ∈ query, '#' ∉ q) :
    splitTail (path ++ query.elim [] ('?' :: ·) ++ fragment.elim [] ('#' :: ·)) =
      (path, query, fragment) := by
  have hbody : ∀ c ∈ path ++ query.elim [] ('?' :: ·), (c != '#') = true := by
    intro c hc
    rw [bne_iff_ne]
    obtain hc | hc := List.mem_append.1 hc
    · exact (hpath c hc).2
    · cases query with
      | none => cases hc
      | some q =>
        rintro rfl
        exact hquery q rfl ((List.mem_cons.1 hc).resolve_left (by decide))
  have hfragment := takeWhile_append_stop (r := fragment.elim [] ('#' :: ·)) hbody <| by
    cases fragment <;> simp
  have hsplit := takeWhile_append_stop (l := path) (r := query.elim [] ('?' :: ·))
    (p := (· != '?')) (fun c hc => bne_iff_ne.2 (hpath c hc).1) (by cases query <;> simp)
  rw [splitTail]
  simp only [hfragment, hsplit]
  cases query <;> cases fragment <;> rfl

/-- Nothing is cleaned away where all characters show. -/
theorem clean_eq_self {s : List Char} (h : ∀ c ∈ s, 0x20 < c.toNat) : clean s = s := by
  have hdrop : ∀ {t : List Char}, (∀ c ∈ t, 0x20 < c.toNat) →
      t.dropWhile (fun c => decide (c.toNat ≤ 0x20)) = t := by
    intro t ht
    rw [List.dropWhile_eq_self_iff]
    intro hlength
    have hc := ht _ (List.getElem_mem hlength)
    simpa using hc
  have hkeep : ∀ c ∈ s, (c != '\t' && c != '\n' && c != '\r') = true := by
    intro c hc
    have hshown := h c hc
    simp only [Bool.and_eq_true, bne_iff_ne]
    refine ⟨⟨?_, ?_⟩, ?_⟩ <;> rintro rfl <;> exact absurd hshown (by decide)
  rw [clean, hdrop h, hdrop fun c hc => h c (List.mem_reverse.1 hc), List.reverse_reverse,
    List.filter_eq_self.2 hkeep]

end Url

/-! ## The parts of a link -/

open Url

theorem Base64.isMild_of_mem_encode {padded : Bool} {bytes : List UInt8} {c : Char}
    (h : c ∈ encode ⟨true, padded⟩ bytes) : isMild c = true := by
  obtain h | rfl | ⟨-, rfl | rfl⟩ | ⟨h, -⟩ := mem_encode h
  · exact isMild_of_isAlphanum h
  · rfl
  · rfl
  · rfl
  · cases h

namespace Percent

/-- Escapes are made of percent signs and digits. -/
theorem isMild_of_mem_escapes {bytes : List UInt8} {c : Char} (h : c ∈ bytes.flatMap escape) :
    isMild c = true := by
  obtain ⟨b, -, hb⟩ := List.mem_flatMap.1 h
  have hdigits : ∀ n < 16, isMild (Text.hexDigitUpper n) = true := by decide
  have hlt := b.toNat_lt
  rw [escape] at hb
  simp only [List.mem_cons, List.not_mem_nil, or_false] at hb
  obtain rfl | rfl | rfl := hb
  · rfl
  · exact hdigits _ (by omega)
  · exact hdigits _ (by omega)

theorem isMild_of_mem_encodeText {s : List Char} {c : Char} (h : c ∈ encodeText s) :
    isMild c = true := by
  obtain ⟨d, -, hd⟩ := List.mem_flatMap.1 h
  rw [encodeChar] at hd
  split at hd
  · next hkeep =>
    rw [List.mem_singleton.1 hd, isMild, hkeep]
    rfl
  · exact isMild_of_mem_escapes hd

end Percent

namespace Server

/-- A host of letters, figures, points and hyphens. -/
def HasPlainHost (s : Server) : Prop :=
  s.host ≠ "" ∧ ∀ c ∈ s.host.toList, c.isAlphanum = true ∨ c = '.' ∨ c = '-'

instance (s : Server) : Decidable s.HasPlainHost :=
  decidable_of_iff
    (s.host ≠ "" ∧ s.host.toList.all (fun c => c.isAlphanum || c == '.' || c == '-') = true)
    (by simp [HasPlainHost, or_assoc])

/-- What a link says of where its server is. -/
def authority (s : Server) : List Char :=
  s.credentials ++ '@' :: (s.host.toList ++ ':' :: Nat.toDigits 10 s.port)

variable {s : Server}

theorem HasPlainHost.isMild (h : s.HasPlainHost) : ∀ c ∈ s.host.toList, isMild c = true := by
  intro c hc
  obtain hc | rfl | rfl := h.2 c hc
  · exact isMild_of_isAlphanum hc
  · rfl
  · rfl

theorem HasPlainHost.hostText_eq (h : s.HasPlainHost) : s.hostText = s.host.toList := by
  have hcolon : ¬ s.host.toList.contains ':' = true := by
    rw [List.contains_iff_mem]
    intro hmem
    exact absurd (h.isMild _ hmem) (by decide)
  rw [hostText, if_neg hcolon]

/-- A link is its scheme, its authority, and what names a plugin and the server. -/
theorem HasPlainHost.toList_link (h : s.HasPlainHost) :
    s.link.toList = ['s', 's', ':', '/', '/'] ++
      (s.authority ++ s.pluginQuery ++ s.nameFragment) := by
  have hport : (toString s.port).toList = Nat.toDigits 10 s.port := Nat.toList_repr
  have hscheme : "ss://".toList = ['s', 's', ':', '/', '/'] := rfl
  unfold link
  rw [String.toList_ofList, h.hostText_eq, hport, hscheme, authority]
  simp only [List.append_assoc, List.cons_append]

/-- The characters of an authority. -/
theorem HasPlainHost.of_mem_authority (h : s.HasPlainHost) {c : Char} (hc : c ∈ s.authority) :
    Url.isMild c = true ∨ c = '@' ∨ c = ':' := by
  rw [authority] at hc
  simp only [List.mem_append, List.mem_cons] at hc
  obtain hc | rfl | hc | rfl | hc := hc
  · exact .inl (Base64.isMild_of_mem_encode hc)
  · exact .inr (.inl rfl)
  · exact .inl (h.isMild c hc)
  · exact .inr (.inr rfl)
  · exact .inl (isMild_of_isAlphanum (by simp [Char.isAlphanum, Text.isDigit_of_mem_toDigits hc]))

theorem HasPlainHost.ne_of_mem_authority (h : s.HasPlainHost) {c : Char} (hc : c ∈ s.authority) :
    c ≠ '/' ∧ c ≠ '?' ∧ c ≠ '#' := by
  obtain hc | rfl | rfl := h.of_mem_authority hc
  · exact ⟨ne_of_isMild hc rfl, ne_of_isMild hc rfl, ne_of_isMild hc rfl⟩
  · decide
  · decide

/-- What names a plugin is a query, behind a slash. -/
theorem pluginQuery_eq (s : Server) : ∃ (after : List Char) (query : Option (List Char)),
    s.pluginQuery = after ++ query.elim [] ('?' :: ·) ∧ (∀ c ∈ after, c = '/') ∧
    ∀ q ∈ query, ∀ c ∈ q, Url.isMild c = true := by
  rw [pluginQuery]
  split
  · exact ⟨[], none, rfl, nofun, nofun⟩
  · refine ⟨['/'], some ("plugin=".toList ++ Percent.encodeText _), rfl, by simp, ?_⟩
    intro q hq c hc
    cases hq
    obtain hc | hc := List.mem_append.1 hc
    · have hkey : ("plugin=".toList).all Url.isMild = true := by decide
      exact List.all_eq_true.1 hkey c hc
    · exact Percent.isMild_of_mem_encodeText hc

/-- What names the server is a fragment, from which its name is read. -/
theorem nameFragment_eq (s : Server) : ∃ fragment : Option (List Char),
    s.nameFragment = fragment.elim [] ('#' :: ·) ∧
    (∀ f ∈ fragment, ∀ c ∈ f, Url.isMild c = true) ∧
    (fragment.map fragmentName).getD "" = s.remarks := by
  rw [nameFragment]
  split
  · next h => exact ⟨none, rfl, nofun, (String.isEmpty_iff.1 h).symm⟩
  · refine ⟨some (Percent.encodeText s.remarks.toList), rfl, ?_, ?_⟩
    · intro f hf c hc
      cases hf
      exact Percent.isMild_of_mem_encodeText hc
    · rw [Option.map_some, Option.getD_some, fragmentName, Percent.decode?_encodeText,
        Option.getD_some, String.ofList_toList]

/-- The characters of a link. -/
theorem HasPlainHost.of_mem_link (h : s.HasPlainHost) {c : Char} (hc : c ∈ s.link.toList) :
    Url.isMild c = true ∨ c ∈ ['@', ':', '/', '?', '#'] := by
  obtain ⟨after, query, hplugin, hafter, hquery⟩ := s.pluginQuery_eq
  obtain ⟨fragment, hname, hfragment, -⟩ := s.nameFragment_eq
  rw [h.toList_link, hplugin, hname] at hc
  simp only [List.mem_append] at hc
  obtain hc | (hc | hc | hc) | hc := hc
  · simp only [List.mem_cons, List.not_mem_nil, or_false] at hc
    obtain rfl | rfl | rfl | rfl | rfl := hc <;> decide
  · obtain hc | rfl | rfl := h.of_mem_authority hc
    · exact .inl hc
    · decide
    · decide
  · rw [hafter c hc]
    decide
  · cases query with
    | none => cases hc
    | some q =>
      obtain rfl | hc := List.mem_cons.1 hc
      · decide
      · exact .inl (hquery q rfl c hc)
  · cases fragment with
    | none => cases hc
    | some f =>
      obtain rfl | hc := List.mem_cons.1 hc
      · decide
      · exact .inl (hfragment f rfl c hc)

theorem HasPlainHost.clean_link (h : s.HasPlainHost) : clean s.link.toList = s.link.toList := by
  refine clean_eq_self fun c hc => ?_
  obtain hc | hc := h.of_mem_link hc
  · exact (isMild_bounds hc).1
  · simp only [List.mem_cons, List.not_mem_nil, or_false] at hc
    obtain rfl | rfl | rfl | rfl | rfl := hc <;> decide

/-- **The link of a server is a URL** with its host, its port and its name. -/
theorem HasPlainHost.parse?_link (h : s.HasPlainHost) (hport : s.port ≤ 65535) :
    ∃ url, Url.parse? s.link = some url ∧ url.host = some (.name s.host.toList) ∧
      url.port = some s.port ∧ (url.fragment.map fragmentName).getD "" = s.remarks := by
  obtain ⟨after, query, hplugin, hafter, hquery⟩ := s.pluginQuery_eq
  obtain ⟨fragment, hname, hfragment, hremarks⟩ := s.nameFragment_eq
  have hne : s.host.toList ≠ [] := by simpa using h.1
  have hread : ∀ atEnd, readAuthority? "ss" atEnd s.authority = some
      (⟨escapeText keptInUser s.credentials, [], some (.name s.host.toList), some s.port⟩, []) :=
    readAuthority?_of_mild (fun c hc => Base64.isMild_of_mem_encode hc) h.isMild hne hport
      (by decide) (by decide)
  have htail : splitTail (s.authority ++ s.pluginQuery ++ s.nameFragment) =
      (s.authority ++ after, query, fragment) := by
    rw [hplugin, hname, ← List.append_assoc]
    refine splitTail_eq (fun c hc => ?_) fun q hq hmem => ?_
    · obtain hc | hc := List.mem_append.1 hc
      · exact (h.ne_of_mem_authority hc).2
      · rw [hafter c hc]
        decide
    · exact absurd (hquery q hq _ hmem) (by decide)
  have hscheme : ∀ body, splitScheme? (['s', 's', ':', '/', '/'] ++ body) =
      some ("ss", '/' :: '/' :: body) := fun body => rfl
  have hauthority : ∀ c ∈ s.authority, endsAuthority (isSpecialScheme "ss") c = false := by
    intro c hc
    have hne := h.ne_of_mem_authority hc
    simp [endsAuthority, hne, show isSpecialScheme "ss" = false by decide]
  have hslash : ∀ c ∈ after.head?, endsAuthority (isSpecialScheme "ss") c = true := by
    intro c hc
    rw [hafter c (List.mem_of_head? hc)]
    decide
  have hurl := ofAuthority?_eq htail hauthority hslash hread
  rw [← parse?_eq (by rw [h.clean_link, h.toList_link, hscheme]) (by decide)] at hurl
  refine ⟨_, hurl, rfl, rfl, ?_⟩
  change ((fragment.map (escapeText keptInFragment)).map fragmentName).getD "" = _
  rw [map_escapeText_of_mild hfragment, hremarks]

/-- A port that a document gives is a number of sixteen bits. -/
theorem port_le {body : List UInt8} {servers : List Server} (h : ofDocument? body = some servers) :
    ∀ s ∈ servers, s.port ≤ 65535 := by
  rw [ofDocument?] at h
  split at h
  · cases h
  · next found hparse =>
    have hadmits : ∀ v ∈ found, v.2.1 ≤ 65535 := fun v hv =>
      ((Json.Shape.parse_admits hparse).1 v hv).2.1
    cases h
    intro s hs
    obtain ⟨v, hv, rfl⟩ := List.mem_map.1 hs
    exact hadmits v hv

/-- **The link of a server is accepted**, with the name, the address and the protocol of the
server. -/
theorem HasPlainHost.readLink_link (h : s.HasPlainHost) (hport : s.port ≤ 65535) :
    readLink s.link = .ok ⟨s.remarks, s.host ++ ":" ++ toString s.port, "shadowsocks"⟩ := by
  obtain ⟨url, hurl, hhost, hurlPort, hremarks⟩ := h.parse?_link hport
  have hsplit : splitLink? s.link.toList =
      some (['s', 's'], s.authority ++ s.pluginQuery ++ s.nameFragment) := by
    rw [h.toList_link]
    rfl
  have hquote : s.link.toList.contains '\'' = false := by
    rw [List.contains_eq_mem, decide_eq_false_iff_not]
    intro hmem
    obtain hmild | hmem := h.of_mem_link hmem
    · exact absurd hmild (by decide)
    · exact absurd hmem (by decide)
  have hat : ((s.authority ++ s.pluginQuery ++ s.nameFragment).takeWhile
      (· != '#')).contains '@' = true := by
    rw [List.append_assoc, List.takeWhile_append_of_pos fun c hc =>
      bne_iff_ne.2 (h.ne_of_mem_authority hc).2.2, authority]
    simp
  have hendpoint : Endpoint.ofUrl s.link "ss" =
      .ok ⟨s.remarks, s.host ++ ":" ++ toString s.port, "shadowsocks"⟩ := by
    rw [Endpoint.ofUrl, hurl]
    simp only [hhost, hurlPort, hremarks, Endpoint.addressText, Endpoint.hostText,
      String.ofList_toList]
    rfl
  have hscheme : String.ofList (['s', 's'].map Char.toLower) = "ss" := by decide
  rw [readLink, Endpoint.ofLink, hsplit]
  simp only [hquote, hscheme, hat, hendpoint, Bool.false_and, Bool.false_eq_true, String.reduceEq,
    if_false, if_true]

end Server

/-- **Servers come back from their links.**  A document of servers gives one link for each of them,
in the order of the document, and each is accepted with the name, the address and the protocol of
its server, whatever the other fields hold. -/
theorem links_of_document {body : List UInt8} {servers : List Server}
    (h : Server.ofDocument? body = some servers) (hhosts : ∀ s ∈ servers, s.HasPlainHost) :
    linksOfBody body = servers.map Server.link ∧
    ∀ s ∈ servers, readLink s.link =
      .ok ⟨s.remarks, s.host ++ ":" ++ toString s.port, "shadowsocks"⟩ := by
  refine ⟨?_, fun s hs => (hhosts s hs).readLink_link (Server.port_le h s hs)⟩
  rw [linksOfBody, h]

/-- Two servers, written as arrays, whose passwords, plugins and names are full of delimiters. -/
theorem links_of_two_servers :
    let body := Utf8.encode ("\x7b\"servers\":[" ++
      "[\"a-1.b\",8388,\"p@:#/\\\"\",\"aes\",\"東 #1 @'\\\"%41\",\"obfs\",\"host=x?\"]," ++
      "[\".\",0,\"\",\"\"]]\x7d").toList
    linksOfBody body = ["ss://YWVzOnBAOiMvIg==@a-1.b:8388/?plugin=obfs%3Bhost%3Dx%3F" ++
      "#%E6%9D%B1%20%231%20%40%27%22%2541", "ss://Og==@.:0"] ∧
    (linksOfBody body).map readLink =
      [.ok ⟨"東 #1 @'\"%41", "a-1.b:8388", "shadowsocks"⟩, .ok ⟨"", ".:0", "shadowsocks"⟩] := by
  intro body
  have hdocument : Server.ofDocument? body =
      some [⟨"a-1.b", 8388, "p@:#/\"", "aes", "東 #1 @'\"%41", "obfs", "host=x?"⟩,
        ⟨".", 0, "", "", "", "", ""⟩] := by decide +kernel
  obtain ⟨hlinks, hread⟩ := links_of_document hdocument (by decide)
  refine ⟨hlinks.trans (by decide +kernel), ?_⟩
  rw [hlinks]
  simp only [List.map_cons, List.map_nil]
  rw [hread _ (by simp), hread _ (by simp)]
  decide +kernel

end ProxyPlane
