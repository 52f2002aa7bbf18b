import Mathlib.Data.List.DropRight
import BrokerCli.Proofs.References

/-!
# The URL of a client

A client has its URL by one of three routes: the host is a URL, an alias, or a literal address. A URL is
NORMAL if it has a scheme of the web and no slash at its end. Which clients have a normal URL:

* `Text.withoutTrailing_append_of_marks`, `withoutTrailing_append` -- what is taken off at the end of a text
  reaches into what stands before just when there is nothing else;
* `isHttp_withoutTrailing_iff` -- without the slashes at its end a URL is still one, unless it is BARE: a
  scheme with nothing but slashes behind it;
* `Client.endpoint_cases` -- the three routes;
* `ClientFactory.isNormal_of_make` -- a client has a normal URL but in two cases: its host is a URL that
  ends in a slash, or the alias of a server with a bare one.

`ClientFactory.slash_kept` shows the first of the two.
-/

namespace BrokerCli

/-! ## 1. The end of a text -/

namespace Text

variable {mark : Char} {s : String}

/-- The text has the mark at its end. -/
def EndsIn (mark : Char) (s : String) : Prop := s.toList.getLast? = some mark
deriving Decidable

theorem toList_withoutTrailing (mark : Char) (s : String) :
    (withoutTrailing mark s).toList = s.toList.rdropWhile (· = mark) := by
  rw [withoutTrailing, String.toList_ofList]
  rfl

theorem not_endsIn_withoutTrailing (mark : Char) (s : String) : ¬ EndsIn mark (withoutTrailing mark s) := by
  intro h
  rw [EndsIn, toList_withoutTrailing] at h
  obtain ⟨hne, hlast⟩ := List.mem_getLast?_eq_getLast h
  exact List.rdropWhile_last_not _ _ hne (decide_eq_true hlast.symm)

/-- What does not end in the mark is kept as it is. -/
theorem withoutTrailing_eq_self_iff : withoutTrailing mark s = s ↔ ¬ EndsIn mark s := by
  constructor
  · intro h
    rw [← h]
    exact not_endsIn_withoutTrailing mark s
  · intro h
    rw [← String.toList_inj, toList_withoutTrailing, List.rdropWhile_eq_self_iff]
    exact fun hne hlast => h ((List.getLast_eq_iff_getLast?_eq_some hne).1 (of_decide_eq_true hlast))

/-- Marks behind a text are taken off, and then those at its own end. -/
theorem withoutTrailing_append_of_marks {rest : String} (h : ∀ c ∈ rest.toList, c = mark) (s : String) :
    withoutTrailing mark (s ++ rest) = withoutTrailing mark s := by
  have hrest : (rest.toList.reverse.dropWhile fun c => decide (c = mark)).isEmpty = true := by simpa using h
  rw [← String.toList_inj, toList_withoutTrailing, toList_withoutTrailing, String.toList_append,
    List.rdropWhile, List.reverse_append, List.dropWhile_append, if_pos hrest]
  rfl

/-- With anything else behind it a text is kept. -/
theorem withoutTrailing_append {rest : String} (h : ¬ ∀ c ∈ rest.toList, c = mark) (s : String) :
    withoutTrailing mark (s ++ rest) = s ++ withoutTrailing mark rest := by
  have hrest : ¬ (rest.toList.reverse.dropWhile fun c => decide (c = mark)).isEmpty = true := by
    simpa using h
  rw [← String.toList_inj, toList_withoutTrailing, String.toList_append, String.toList_append,
    toList_withoutTrailing, List.rdropWhile, List.reverse_append, List.dropWhile_append, if_neg hrest,
    List.reverse_append, List.reverse_reverse]
  rfl

/-- What is cut off before a character does not hold it. -/
theorem notMem_before {stops : Char → Bool} {c : Char} (h : stops c = true) :
    c ∉ (before stops s).toList := by
  rw [before, String.toList_ofList]
  intro hc
  have hkept := List.mem_takeWhile_imp hc
  rw [h] at hkept
  cases hkept

end Text

/-! ## 2. URLs -/

variable {url : String}

/-- The beginnings of a URL of the web. -/
def schemes : List String := ["http://", "https://"]

/-- A scheme with nothing but slashes behind it. -/
def IsBare (url : String) : Prop :=
  ∃ scheme ∈ schemes, ∃ rest : String, url = scheme ++ rest ∧ ∀ c ∈ rest.toList, c = '/'

/-- A URL of the web without a slash at its end. -/
structure IsNormal (url : String) : Prop where
  isHttp : isHttp url = true
  noSlash : ¬ Text.EndsIn '/' url

theorem isHttp_iff : isHttp url = true ↔ ∃ scheme ∈ schemes, ∃ rest, url = scheme ++ rest := by
  simp [isHttp, schemes, Text.beginsWith_iff]

/-- Of a bare URL not even the scheme is left. -/
theorem isHttp_withoutTrailing_of_bare (h : IsBare url) : isHttp (Text.withoutTrailing '/' url) = false := by
  obtain ⟨scheme, hscheme, rest, rfl, hrest⟩ := h
  rw [Text.withoutTrailing_append_of_marks hrest]
  revert scheme
  decide +kernel

/-- **Without the slashes at its end a URL is still one, unless it is bare.** -/
theorem isHttp_withoutTrailing_iff (h : isHttp url = true) :
    isHttp (Text.withoutTrailing '/' url) = true ↔ ¬ IsBare url := by
  constructor
  · intro hkept hbare
    rw [isHttp_withoutTrailing_of_bare hbare] at hkept
    cases hkept
  · intro hbare
    obtain ⟨scheme, hscheme, rest, rfl⟩ := isHttp_iff.1 h
    have hrest : ¬ ∀ c ∈ rest.toList, c = '/' := fun hall => hbare ⟨scheme, hscheme, rest, rfl, hall⟩
    rw [Text.withoutTrailing_append hrest]
    exact isHttp_iff.2 ⟨scheme, hscheme, _, rfl⟩

/-! ## 3. The routes to a URL -/

namespace Client

variable {servers : ServerTable} {host : String} {s : Server}

/-- The host is the alias of a registered server, with or without a path behind it. -/
structure ByAlias (servers : ServerTable) (host : String) : Prop where
  noUrl : isHttp host = false
  registered : servers.contains (aliasOf host) = true

/-- **The routes to the URL of a client**: the host itself, the server that an alias means, and the literal
    address. -/
theorem endpoint_cases (h : endpoint servers host = .ok (url, s)) :
    (isHttp host = true ∧ url = host) ∨
    (ByAlias servers host ∧ isHttp s.host = true ∧ url = Text.withoutTrailing '/' s.host) ∨
    (isHttp host = false ∧ servers.contains (aliasOf host) = false ∧
      Address.isLiteral (aliasOf host) = true ∧ url = "http://" ++ aliasOf host) := by
  by_cases hurl : isHttp host = true
  · rw [endpoint_of_url hurl] at h
    cases h
    exact .inl ⟨hurl, rfl⟩
  have hurl : isHttp host = false := Bool.eq_false_iff.2 hurl
  refine .inr ?_
  by_cases halias : servers.contains (aliasOf host) = true
  · obtain ⟨hlookup, rfl⟩ := (endpoint_of_alias hurl halias).1 h
    have hname : aliasOf host ≠ "" := by
      intro hempty
      rw [hempty] at hlookup
      cases hlookup
    obtain ⟨_, _, _, _, _, _, hhttp, rfl⟩ := (ServerTable.lookup_eq_ok_iff hname).1 hlookup
    exact .inl ⟨⟨hurl, halias⟩, hhttp, rfl⟩
  · unfold endpoint at h
    rw [hurl, if_neg Bool.false_ne_true] at h
    dsimp only at h
    rw [if_neg halias] at h
    split at h
    · rename_i hliteral
      cases h
      exact .inr ⟨hurl, Bool.eq_false_iff.2 halias, hliteral, rfl⟩
    · cases h

/-- The URL of an address is normal: an address is not empty, and has no slash. -/
theorem isNormal_address (h : Address.isLiteral (aliasOf host) = true) :
    IsNormal ("http://" ++ aliasOf host) := by
  refine ⟨isHttp_iff.2 ⟨"http://", List.mem_cons_self, _, rfl⟩, fun hends => ?_⟩
  have hnone : '/' ∉ (aliasOf host).toList := Text.notMem_before rfl
  rw [Text.EndsIn, String.toList_append, List.getLast?_append, Option.or_eq_some_iff] at hends
  rcases hends with hends | ⟨hempty, _⟩
  · exact hnone (List.mem_of_getLast? hends)
  · rw [List.getLast?_eq_none_iff, String.toList_eq_nil_iff] at hempty
    rw [hempty] at h
    revert h
    decide +kernel

end Client

/-! ## 4. Clients -/

namespace ClientFactory

open Client

variable {servers : ServerTable} {options : ClientOptions} {r : ClientRequest} {c : Client}

/-- **Which clients have a normal URL**, for all servers and requests.

    The URL of a client ends in a slash just when its host is a URL that does; it is no URL of the web just
    when its host is an alias, and the server that is meant has a bare URL. In all other cases it is normal.

    Let the host be an alias. For the URL of the server that it means a client can be made as well, and its
    URL is that one as it stands; so the two clients have the same URL just when it ends in no slash. -/
theorem isNormal_of_make (h : registry.make servers options r = .ok c) :
    (Text.EndsIn '/' c.url ↔ isHttp r.host = true ∧ Text.EndsIn '/' r.host) ∧
    (isHttp c.url = false ↔ ByAlias servers r.host ∧ IsBare c.server.host) ∧
    (IsNormal c.url ↔ ¬ (isHttp r.host = true ∧ Text.EndsIn '/' r.host) ∧
      ¬ (ByAlias servers r.host ∧ IsBare c.server.host)) ∧
    (ByAlias servers r.host → ∀ (options' : ClientOptions) (r' : ClientRequest), r'.host = c.server.host →
      ∃ c', registry.make servers options' r' = .ok c' ∧ c'.url = c.server.host ∧
        (c'.url = c.url ↔ ¬ Text.EndsIn '/' c.server.host)) := by
  have hroutes := endpoint_cases (eq_of_make h).1
  have hends : Text.EndsIn '/' c.url ↔ isHttp r.host = true ∧ Text.EndsIn '/' r.host := by
    rcases hroutes with ⟨hurl, hc⟩ | ⟨halias, _, hc⟩ | ⟨hurl, _, hliteral, hc⟩
    · rw [hc]
      exact (and_iff_right hurl).symm
    · rw [hc]
      refine iff_of_false (Text.not_endsIn_withoutTrailing _ _) fun hhost => ?_
      exact Bool.noConfusion (halias.noUrl.symm.trans hhost.1)
    · rw [hc]
      refine iff_of_false (isNormal_address hliteral).noSlash fun hhost => ?_
      exact Bool.noConfusion (hurl.symm.trans hhost.1)
  have hscheme : isHttp c.url = false ↔ ByAlias servers r.host ∧ IsBare c.server.host := by
    rcases hroutes with ⟨hurl, hc⟩ | ⟨halias, hserver, hc⟩ | ⟨_, hunknown, hliteral, hc⟩
    · rw [hc]
      refine iff_of_false (by rw [hurl]; decide) fun hhost => ?_
      exact Bool.noConfusion (hhost.1.noUrl.symm.trans hurl)
    · rw [and_iff_right halias, hc, ← Bool.not_eq_true, isHttp_withoutTrailing_iff hserver, not_not]
    · rw [hc]
      refine iff_of_false (by rw [(isNormal_address hliteral).isHttp]; decide) fun hhost => ?_
      exact Bool.noConfusion (hunknown.symm.trans hhost.1.registered)
  refine ⟨hends, hscheme, ?_, fun halias options' r' hr' => ?_⟩
  · rw [← hends, ← hscheme, Bool.not_eq_false]
    exact ⟨fun hnormal => ⟨hnormal.noSlash, hnormal.isHttp⟩, fun hnormal => ⟨hnormal.2, hnormal.1⟩⟩
  · rcases hroutes with ⟨hurl, _⟩ | ⟨_, hserver, hc⟩ | ⟨_, hunknown, _⟩
    · exact Bool.noConfusion (halias.noUrl.symm.trans hurl)
    · refine ⟨_, make_of_endpoint ((congrArg _ hr').trans (endpoint_of_url hserver)), rfl, ?_⟩
      rw [hc, eq_comm]
      exact Text.withoutTrailing_eq_self_iff
    · exact Bool.noConfusion (hunknown.symm.trans halias.registered)

/-- A server whose URL ends in a slash. -/
def slashed : ServerTable := Dictionary.ofList [("orion", .broker "http://localhost:1026/" "v2")]

/-- An alias with a path behind it: the client has a normal URL, and another one than the client for the URL
    that is registered. -/
theorem isNormal_of_make_path :
    let r : ClientRequest := { host := "orion/v2" }
    let c := Client.ofServer {} r "http://localhost:1026" (.broker "http://localhost:1026/" "v2")
    registry.make slashed {} r = .ok c ∧ IsNormal c.url ∧
      ∃ c', registry.make slashed {} { host := "http://localhost:1026/" } = .ok c' ∧ c'.url ≠ c.url := by
  intro r c
  have hmake : registry.make slashed {} r = .ok c := by decide +kernel
  have halias : ByAlias slashed r.host := ⟨by decide +kernel, by decide +kernel⟩
  have hends : Text.EndsIn '/' c.server.host := by decide +kernel
  obtain ⟨_, _, hnormal, hsame⟩ := isNormal_of_make hmake
  obtain ⟨c', hmake', _, hurl⟩ := hsame halias {} { host := "http://localhost:1026/" } rfl
  refine ⟨hmake, hnormal.2 ⟨?_, ?_⟩, c', hmake', fun he => hurl.1 he hends⟩
  · rintro ⟨hhost, _⟩
    exact Bool.noConfusion (halias.noUrl.symm.trans hhost)
  · rintro ⟨_, hbare⟩
    have hkept := isHttp_withoutTrailing_of_bare hbare
    revert hkept
    decide +kernel

/-- **Not every client has a normal URL**: a URL that is the host keeps the slash at its end. -/
theorem slash_kept : ¬ ∀ (servers : ServerTable) (options : ClientOptions) (r : ClientRequest) (c : Client),
    registry.make servers options r = .ok c → IsNormal c.url := by
  intro h
  have hnormal := h .empty {} { host := "http://localhost:1026/" } _ rfl
  exact hnormal.noSlash (by decide +kernel)

end ClientFactory

end BrokerCli
