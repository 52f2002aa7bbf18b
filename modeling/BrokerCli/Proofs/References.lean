import BrokerCli.Proofs.Forward

/-!
# References between servers

A table of servers is a graph. The host of a server is a URL or the name of another server, and the names
may lead anywhere: to the server itself, round in a circle, or to no server at all. What an alias means:

* `Server.RefersTo` -- the host of a server is the name of another one;
* `ServerTable.Leads` -- an alias leads to a server by a number of references. A URL ends the way, so that
  there is only one way to one (`ServerTable.Leads.unique_of_url`);
* `ServerTable.lookup_eq_ok_iff` -- what is found is the last server of a way of at most one reference, with
  the identity of the first;
* `ServerTable.lookup_follows_once` -- when something is found, what it is, and that a client made for an
  alias has a host at which nothing is looked up any more.
-/

namespace BrokerCli

/-! ## 1. References -/

namespace Server

variable {s : Server} {name : String}

/-- The host of a server is the name of another one: it is no URL, and it is not empty. -/
structure RefersTo (s : Server) (name : String) : Prop where
  host : s.host = name
  noUrl : isHttp name = false
  named : name ≠ ""

/-- A server with a URL refers to none. -/
theorem RefersTo.isHttp_host (h : s.RefersTo name) : isHttp s.host = false := h.host ▸ h.noUrl

/-- Each part of the identity is the referring server's, unless it has none. -/
theorem ofServer_referredBy (target referrer : Server) (slot : Slot) :
    slot.ofServer (target.referredBy referrer) =
      if slot.ofServer referrer = "" then slot.ofServer target else slot.ofServer referrer := by
  simp only [← String.isEmpty_iff]
  cases slot <;> rfl

/-- A server that takes its own identity is what it was. -/
theorem referredBy_self (s : Server) : s.referredBy s = s := by
  simp only [referredBy, ite_self]

end Server

namespace ServerTable

variable {t : ServerTable} {name : String} {s s' : Server} {n m : Nat}

/-- An alias leads to a server by `n` references, one after the other. -/
inductive Leads (t : ServerTable) : String → Nat → Server → Prop where
  | here {name : String} {s : Server} (h : t.get? name = some s) : Leads t name 0 s
  | on {name next : String} {s last : Server} {n : Nat} (h : t.get? name = some s)
      (href : s.RefersTo next) (hrest : Leads t next n last) : Leads t name (n + 1) last

/-- **There is one way to a URL at most**: behind a server with a URL no way goes on. -/
theorem Leads.unique_of_url (h : t.Leads name n s) (hs : isHttp s.host = true)
    (h' : t.Leads name m s') (hs' : isHttp s'.host = true) : n = m ∧ s = s' := by
  induction h generalizing m with
  | here hget =>
    cases h' with
    | here hget' => exact ⟨rfl, Option.some.inj (hget.symm.trans hget')⟩
    | on hget' href' _ =>
      cases hget.symm.trans hget'
      exact Bool.noConfusion (href'.isHttp_host.symm.trans hs)
  | on hget href _ ih =>
    cases h' with
    | here hget' =>
      cases hget.symm.trans hget'
      exact Bool.noConfusion (href.isHttp_host.symm.trans hs')
    | on hget' href' hrest' =>
      cases hget.symm.trans hget'
      cases href.host.symm.trans href'.host
      obtain ⟨hn, hlast⟩ := ih hs hrest'
      exact ⟨congrArg (· + 1) hn, hlast⟩

/-! ## 2. What is found -/

/-- A reference is followed to a server with a URL, or not at all. -/
theorem follow_eq_ok_iff {first : Server} (hurl : isHttp first.host = false) :
    t.follow first = .ok s ↔ ∃ next last, first.RefersTo next ∧ t.get? next = some last ∧
      isHttp last.host = true ∧ s = last.referredBy first := by
  unfold follow
  constructor
  · intro h
    split at h
    · cases h
    rename_i hempty
    split at h
    · cases h
    · rename_i last hlast
      split at h
      · rename_i hhttp
        cases h
        exact ⟨first.host, last, ⟨rfl, hurl, mt String.isEmpty_iff.2 hempty⟩, hlast, hhttp, rfl⟩
      · cases h
  · rintro ⟨next, last, ⟨rfl, _, hnamed⟩, hlast, hhttp, rfl⟩
    rw [if_neg (mt String.isEmpty_iff.1 hnamed), hlast]
    exact if_pos hhttp

/-- **What an alias means** is the last server of a way of at most one reference, with the identity of the
    first. -/
theorem lookup_eq_ok_iff (hname : name ≠ "") : t.lookup name false = .ok s ↔
    ∃ n ≤ 1, ∃ first last, t.get? name = some first ∧ t.Leads name n last ∧ isHttp last.host = true ∧
      s = last.referredBy first := by
  unfold lookup
  rw [if_neg (mt String.isEmpty_iff.1 hname)]
  cases hget : t.get? name with
  | none =>
    refine iff_of_false nofun ?_
    rintro ⟨_, _, first, _, hfirst, _⟩
    cases hfirst
  | some first =>
    simp only [Bool.false_or]
    by_cases hurl : isHttp first.host = true
    · rw [if_pos hurl]
      constructor
      · intro h
        obtain rfl : first = s := Except.ok.inj h
        exact ⟨0, Nat.zero_le 1, first, first, rfl, .here hget, hurl, (Server.referredBy_self first).symm⟩
      · rintro ⟨n, _, first', last, hfirst, hlast, hhttp, rfl⟩
        cases hfirst
        obtain ⟨_, rfl⟩ := hlast.unique_of_url hhttp (.here hget) hurl
        rw [Server.referredBy_self]
    · have hurl : isHttp first.host = false := Bool.eq_false_iff.2 hurl
      rw [hurl, if_neg Bool.false_ne_true, follow_eq_ok_iff hurl]
      constructor
      · rintro ⟨next, last, href, hnext, hhttp, rfl⟩
        exact ⟨1, Nat.le_refl 1, first, last, rfl, .on hget href (.here hnext), hhttp, rfl⟩
      · rintro ⟨n, hn, first', last, hfirst, hlast, hhttp, rfl⟩
        cases hfirst
        cases hlast with
        | here hget' =>
          cases hget.symm.trans hget'
          exact Bool.noConfusion (hurl.symm.trans hhttp)
        | on hget' href hrest =>
          cases hget.symm.trans hget'
          cases hrest with
          | here hnext => exact ⟨_, last, href, hnext, hhttp, rfl⟩
          | on => exact absurd hn (by omega)

/-- Verbatim, an alias means the server that is registered under it. -/
theorem lookup_verbatim (hname : name ≠ "") : t.lookup name true = .ok s ↔ t.get? name = some s := by
  unfold lookup
  rw [if_neg (mt String.isEmpty_iff.1 hname)]
  cases t.get? name with
  | none => exact iff_of_false nofun nofun
  | some first => simp

end ServerTable

/-! ## 3. Clients for an alias -/

namespace Client

variable {servers : ServerTable} {host url : String} {s : Server}

/-- A URL is the endpoint that it says, whatever servers are registered. -/
theorem endpoint_of_url (h : isHttp host = true) : endpoint servers host = .ok (host, .broker host "") :=
  if_pos h

/-- An alias is the endpoint of the server that it means. -/
theorem endpoint_of_alias (hurl : isHttp host = false) (halias : servers.contains (aliasOf host) = true) :
    endpoint servers host = .ok (url, s) ↔
      servers.lookup (aliasOf host) false = .ok s ∧ url = Text.withoutTrailing '/' s.host := by
  unfold endpoint
  rw [hurl, if_neg Bool.false_ne_true]
  dsimp only
  rw [if_pos halias]
  cases servers.lookup (aliasOf host) false with
  | error e => exact iff_of_false nofun fun h => nomatch h.1
  | ok found =>
    constructor
    · rintro ⟨⟩
      exact ⟨rfl, rfl⟩
    · rintro ⟨⟨⟩, rfl⟩
      rfl

end Client

namespace ServerTable

/-- **An alias means what at most one reference leads to**, for every table.

    Something is found just when the alias leads to a server with a URL by at most one reference; where it
    leads to one by more of them, nothing is. What is found has the URL of the last server and all that it
    says, but for the identity: tenant, scope and token are those of the first server where it has them.
    Without a reference the first server is found as it is. Verbatim, an alias means the server that is
    registered under it, and nothing if there is none.

    So a client that is made for an alias has a server with a URL. As a host this is no alias again: the same
    endpoint is taken for it whatever servers are registered. -/
theorem lookup_follows_once (t : ServerTable) {name : String} (hname : name ≠ "") :
    ((∃ s, t.lookup name false = .ok s) ↔
      ∃ n ≤ 1, ∃ last, t.Leads name n last ∧ isHttp last.host = true) ∧
    (∀ n last, t.Leads name n last → isHttp last.host = true →
      ((∃ s, t.lookup name false = .ok s) ↔ n ≤ 1)) ∧
    (∀ s, t.lookup name false = .ok s → isHttp s.host = true ∧
      ∃ n ≤ 1, ∃ first last, t.get? name = some first ∧ t.Leads name n last ∧ s.host = last.host ∧
        (∀ slot : Slot, slot.ofServer s =
          if slot.ofServer first = "" then slot.ofServer last else slot.ofServer first) ∧
        s = { last with tenant := s.tenant, scope := s.scope, token := s.token } ∧
        (n = 0 → s = first)) ∧
    ((∃ s, t.lookup name true = .ok s) ↔ t.contains name = true) ∧
    (∀ s, t.lookup name true = .ok s → t.get? name = some s) ∧
    (∀ options r c, isHttp r.host = false → Client.aliasOf r.host = name → t.contains name = true →
      ClientFactory.registry.make t options r = .ok c →
      t.lookup name false = .ok c.server ∧ isHttp c.server.host = true ∧
        ∀ servers, Client.endpoint servers c.server.host =
          .ok (c.server.host, .broker c.server.host "")) := by
  have hfound : (∃ s, t.lookup name false = .ok s) ↔
      ∃ n ≤ 1, ∃ last, t.Leads name n last ∧ isHttp last.host = true := by
    constructor
    · rintro ⟨s, hs⟩
      obtain ⟨n, hn, _, last, _, hlast, hhttp, _⟩ := (lookup_eq_ok_iff hname).1 hs
      exact ⟨n, hn, last, hlast, hhttp⟩
    · rintro ⟨n, hn, last, hlast, hhttp⟩
      obtain ⟨first, hfirst⟩ : ∃ first, t.get? name = some first := by
        cases hlast with
        | here h => exact ⟨_, h⟩
        | on h _ _ => exact ⟨_, h⟩
      exact ⟨_, (lookup_eq_ok_iff hname).2 ⟨n, hn, first, last, hfirst, hlast, hhttp, rfl⟩⟩
  have hurl {s : Server} (hs : t.lookup name false = .ok s) : isHttp s.host = true := by
    obtain ⟨_, _, _, last, _, _, hhttp, rfl⟩ := (lookup_eq_ok_iff hname).1 hs
    exact hhttp
  refine ⟨hfound, fun n last hlast hhttp => ?_, fun s hs => ⟨hurl hs, ?_⟩, ?_,
    fun s hs => (lookup_verbatim hname).1 hs, fun options r c hr hc halias hmake => ?_⟩
  · rw [hfound]
    constructor
    · rintro ⟨m, hm, last', hlast', hhttp'⟩
      obtain ⟨rfl, _⟩ := hlast.unique_of_url hhttp hlast' hhttp'
      exact hm
    · exact fun hn => ⟨n, hn, last, hlast, hhttp⟩
  · obtain ⟨n, hn, first, last, hfirst, hlast, _, rfl⟩ := (lookup_eq_ok_iff hname).1 hs
    refine ⟨n, hn, first, last, hfirst, hlast, rfl, Server.ofServer_referredBy last first, rfl, ?_⟩
    rintro rfl
    cases hlast with
    | here hget =>
      cases hfirst.symm.trans hget
      exact Server.referredBy_self first
  · simp only [lookup_verbatim hname, Dictionary.contains, Option.isSome_iff_exists]
  · subst hc
    have hlookup := ((Client.endpoint_of_alias hr halias).1 (Client.eq_of_make hmake).1).1
    exact ⟨hlookup, hurl hlookup, fun _ => Client.endpoint_of_url (hurl hlookup)⟩

/-- A server, a reference to it with a tenant, a reference to the reference, and one to itself. -/
def rooms : ServerTable := Dictionary.ofList
  [("orion", .broker "http://localhost:1026" "v2"), ("rooms", { serverHost := "orion", tenant := "openiot" }),
   ("floor", { serverHost := "rooms" }), ("loop", { serverHost := "loop" })]

/-- One reference is followed, and the tenant is that of the reference. -/
theorem lookup_follows_once_rooms : "rooms" ≠ "" ∧ ∃ s, rooms.lookup "rooms" false = .ok s ∧
    isHttp s.host = true ∧ s.tenant = "openiot" := by
  have hrooms : rooms.get? "rooms" = some { serverHost := "orion", tenant := "openiot" } := by
    decide +kernel
  have horion : rooms.get? "orion" = some (.broker "http://localhost:1026" "v2") := by decide +kernel
  have hleads : rooms.Leads "rooms" 1 (.broker "http://localhost:1026" "v2") :=
    .on hrooms ⟨rfl, by decide +kernel, by decide⟩ (.here horion)
  have hname : "rooms" ≠ "" := by decide
  obtain ⟨hfound, _, hmeans, _⟩ := lookup_follows_once rooms hname
  obtain ⟨s, hs⟩ := hfound.2 ⟨1, Nat.le_refl 1, _, hleads, by decide +kernel⟩
  obtain ⟨hurl, n, _, first, last, hfirst, _, _, hslot, _⟩ := hmeans s hs
  cases hrooms.symm.trans hfirst
  exact ⟨hname, s, hs, hurl, hslot .tenant⟩

example : rooms.lookup "floor" false = .error (.notUrl "orion") ∧
    rooms.lookup "loop" false = .error (.notUrl "loop") := by
  decide +kernel

end ServerTable

end BrokerCli
