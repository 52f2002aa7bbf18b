import BrokerCli.Configuration
import BrokerCli.Proofs.JsonText
import BrokerCli.Proofs.Kept

/-!
# Reading a configuration undoes writing it

The two directions of the JSON form are told apart field by field; here they meet:

* `Document.textField?_written` -- of fields that are written without the empty ones, each is read as
  it was;
* `Document.others?_written` -- unknown members are read as they were;
* `Server.Fits`, `ServerTable.Fits`, `Configuration.Fits` -- unknown keys that are none of the known
  ones, with values that fit. All that is read fits (`fits_of_ofDocument?`), and what fits is read as
  it was written (`ofDocument?_toJson`).
-/

namespace BrokerCli

/-! ## 1. Fields of an object -/

namespace Document

/-- Members, said. -/
def said (ms : List (String × Json)) : List (String × Document) := ms.map fun m => (m.1, ofJson m.2)

theorem named?_ofJsonMembers (ms : List (String × Json)) :
    named? (ofJsonMembers ms) = some (said ms) := by
  induction ms with
  | nil => rfl
  | cons m ms ih =>
    rw [ofJsonMembers, ofJsonMember_eq, named?, ih]
    rfl

variable {keys : List String} {ms rest : List (String × Document)}

theorem single?_of_not_mem (h : ∀ m ∈ ms, m.1 ∉ keys) : single? keys ms = some none := by
  have hf : (ms.filter fun m => keys.contains m.1) = [] := by
    rw [List.filter_eq_nil_iff]
    intro m hm
    simpa using h m hm
  unfold single?
  rw [hf]

/-- A member under one of the keys is the one that is meant, if there is no other. -/
theorem single?_cons {key : String} {d : Document} (hk : key ∈ keys) (h : ∀ m ∈ ms, m.1 ∉ keys) :
    single? keys ((key, d) :: ms) = some (some d) := by
  have hf : (ms.filter fun m => keys.contains m.1) = [] := by
    rw [List.filter_eq_nil_iff]
    intro m hm
    simpa using h m hm
  have hc : keys.contains key = true := by simpa using hk
  unfold single?
  rw [List.filter_cons, if_pos hc, hf]

theorem single?_cons_of_not_mem {m : String × Document} (h : m.1 ∉ keys) :
    single? keys (m :: ms) = single? keys ms := by
  have hc : ¬ keys.contains m.1 = true := by simpa using h
  unfold single?
  rw [List.filter_cons, if_neg hc]

/-- The fields that are not empty, as texts. -/
def written (fs : List (String × String)) : List (String × Document) :=
  (fs.filter fun f => !f.2.isEmpty).map fun f => (f.1, .string (some f.2))

theorem fst_of_mem_written {fs : List (String × String)} {m : String × Document} (h : m ∈ written fs) :
    m.1 ∈ fs.map Prod.fst := by
  obtain ⟨f, hf, rfl⟩ := List.mem_map.1 h
  exact List.mem_map_of_mem (List.mem_of_mem_filter hf)

/-- **Of fields that are written without the empty ones, each is read as it was.** -/
theorem textField?_written {fs : List (String × String)} (hn : (fs.map Prod.fst).Nodup)
    {key text : String} (hf : (key, text) ∈ fs) (hr : ∀ m ∈ rest, m.1 ≠ key) :
    textField? key (written fs ++ rest) = some text := by
  have hrest : ∀ m ∈ rest, m.1 ∉ [key] := fun m hm => by simpa using hr m hm
  induction fs with
  | nil => cases hf
  | cons f fs ih =>
    rw [List.map_cons, List.nodup_cons] at hn
    have hskip : f.1 ≠ key → textField? key (written (f :: fs) ++ rest) =
        textField? key (written fs ++ rest) := by
      intro hne
      unfold textField? written
      cases he : f.2.isEmpty with
      | true => rw [List.filter_cons_of_neg (by simp [he])]
      | false =>
        rw [List.filter_cons_of_pos (by simp [he]), List.map_cons, List.cons_append,
          single?_cons_of_not_mem (by simpa using hne)]
    rcases List.mem_cons.1 hf with rfl | hf
    · have hnone : ∀ m ∈ written fs ++ rest, m.1 ∉ [key] := by
        intro m hm
        rcases List.mem_append.1 hm with hm | hm
        · intro he
          rw [List.mem_singleton] at he
          exact hn.1 (he ▸ fst_of_mem_written hm)
        · exact hrest m hm
      unfold textField?
      cases he : text.isEmpty with
      | true =>
        have ht : text = "" := String.isEmpty_iff.1 he
        have hw : written ((key, text) :: fs) = written fs := by
          unfold written
          rw [List.filter_cons_of_neg (by simp [he])]
        rw [hw, single?_of_not_mem hnone, ht]
      | false =>
        have hw : written ((key, text) :: fs) = (key, .string (some text)) :: written fs := by
          unfold written
          rw [List.filter_cons_of_pos (by simp [he])]
          rfl
        rw [hw, List.cons_append, single?_cons (List.mem_singleton_self key) hnone]
    · rw [hskip fun e => hn.1 (e ▸ List.mem_map_of_mem hf)]
      exact ih hn.2 hf

theorem readValues?_map {α : Type} {read : Document → Option α} (say : α → Document)
    {as : List (String × α)} (h : ∀ a ∈ as, read (say a.2) = some a.2) :
    readValues? read (as.map fun a => (a.1, say a.2)) = some as := by
  induction as with
  | nil => rfl
  | cons a as ih =>
    have has := ih fun b hb => h b (List.mem_cons_of_mem _ hb)
    simp only [List.map_cons, readValues?, h a List.mem_cons_self, has]

theorem mem_of_readValues? {α : Type} {read : Document → Option α} {as : List (String × α)}
    (h : readValues? read ms = some as) {a : String × α} (ha : a ∈ as) :
    ∃ m ∈ ms, m.1 = a.1 ∧ read m.2 = some a.2 := by
  induction ms generalizing as with
  | nil =>
    cases h
    cases ha
  | cons m ms ih =>
    rw [readValues?] at h
    split at h
    · rename_i b bs hb hbs
      cases h
      rcases List.mem_cons.1 ha with rfl | ha
      · exact ⟨m, List.mem_cons_self, rfl, hb⟩
      · obtain ⟨k, hk, hread⟩ := ih hbs ha
        exact ⟨k, List.mem_cons_of_mem _ hk, hread⟩
    · cases h

/-- Unknown members: under none of the known keys, with values that fit. -/
def Unknown (known : List String) (depth : Nat) (d : Dictionary Json) : Prop :=
  ∀ e ∈ d.entries, e.1 ∉ known ∧ e.2.Fits depth

/-- What is read as unknown members are unknown members. -/
theorem unknown_of_others? {known : List String} {depth : Nat} {d : Dictionary Json}
    (h : others? known depth ms = some d) : Unknown known depth d := by
  obtain ⟨es, hes, rfl⟩ := Option.map_eq_some_iff.1 h
  intro e he
  obtain ⟨m, hm, hkey, hvalue⟩ := mem_of_readValues? hes (Dictionary.mem_of_mem_ofList he)
  have hk := (List.mem_filter.1 hm).2
  refine ⟨?_, fits_of_toJson? m.2 hvalue⟩
  rw [← hkey]
  simpa using hk

/-- **Unknown members are read as they were.** -/
theorem others?_written {known : List String} {depth : Nat} {d : Dictionary Json}
    (h : Unknown known depth d) (hk : ∀ m ∈ ms, m.1 ∈ known) :
    others? known depth (ms ++ said d.entries) = some d := by
  have hms : (ms.filter fun m => !known.contains m.1) = [] := by
    rw [List.filter_eq_nil_iff]
    intro m hm
    simpa using hk m hm
  have hsaid : ((said d.entries).filter fun m => !known.contains m.1) = said d.entries := by
    rw [List.filter_eq_self]
    intro m hm
    obtain ⟨e, he, rfl⟩ := List.mem_map.1 hm
    simpa using (h e he).1
  unfold others?
  rw [List.filter_append, hms, hsaid, List.nil_append, said, readValues?_map ofJson fun e he => (h e he).2,
    Option.map_some, Dictionary.ofList_entries]

end Document

open Document

/-! ## 2. Settings -/

/-- The settings are read as they were written. -/
theorem Settings.ofDocument?_toJson (s : Settings) : ofDocument? (ofJson s.toJson) = some s := by
  cases s
  rfl

/-! ## 3. Servers -/

namespace Server

/-- The unknown parts of a server are unknown, and may open `depth` containers. -/
def Fits (depth : Nat) (s : Server) : Prop := Unknown keys depth s.extra

theorem fits_of_ofDocument? {depth : Nat} {d : Document} {s : Server}
    (h : ofDocument? depth d = some s) : s.Fits depth := by
  cases d with
  | object ms =>
    obtain ⟨named, _, h⟩ := Option.bind_eq_some_iff.1 h
    unfold ofFields? at h
    -- the known fields come first
    iterate 13 obtain ⟨_, _, h⟩ := Option.bind_eq_some_iff.1 h
    obtain ⟨extra, hextra, h⟩ := Option.bind_eq_some_iff.1 h
    cases h
    exact unknown_of_others? hextra
  | _ => cases h

theorem map_fst_fields (s : Server) : s.fields.map Prod.fst = keys := rfl

/-- **A server is read as it was written.** -/
theorem ofDocument?_toJson {depth : Nat} {s : Server} (h : s.Fits depth) :
    ofDocument? depth (ofJson s.toJson) = some s := by
  have hsaid : said (((s.fields.filter fun f => !f.2.isEmpty).map fun f =>
      (f.1, Json.string f.2)) ++ s.extra.entries) = written s.fields ++ said s.extra.entries := by
    rw [said, List.map_append, List.map_map, written, said]
    rfl
  have hnodup : (s.fields.map Prod.fst).Nodup := by
    rw [map_fst_fields]
    decide
  have hfield {key text : String} (hf : (key, text) ∈ s.fields) :
      textField? key (written s.fields ++ said s.extra.entries) = some text := by
    refine textField?_written hnodup hf fun m hm => ?_
    obtain ⟨e, he, rfl⟩ := List.mem_map.1 (show m ∈ s.extra.entries.map _ from hm)
    intro hk
    have hmem : key ∈ s.fields.map Prod.fst := List.mem_map_of_mem hf
    exact (h e he).1 (hk ▸ hmem)
  have hothers : others? keys depth (written s.fields ++ said s.extra.entries) = some s.extra :=
    others?_written h fun m hm => by
      rw [← map_fst_fields s]
      exact fst_of_mem_written hm
  have hfields : ∀ f ∈ s.fields,
      textField? f.1 (written s.fields ++ said s.extra.entries) = some f.2 := fun f hf => hfield hf
  simp only [fields, List.forall_mem_cons] at hfields
  rw [toJson, ofJson, ofDocument?, named?_ofJsonMembers, hsaid, Option.bind_some, ofFields?]
  simp only [fields] at hothers ⊢
  simp only [hfields, hothers, Option.bind_eq_bind, Option.bind_some, Option.pure_def]

end Server

namespace ServerTable

/-- All servers fit. -/
def Fits (depth : Nat) (t : ServerTable) : Prop := ∀ e ∈ t.entries, e.2.Fits depth

theorem fits_of_ofDocument? {depth : Nat} {d : Document} {t : ServerTable}
    (h : ofDocument? depth d = some t) : t.Fits depth := by
  cases d with
  | object ms =>
    obtain ⟨named, _, h⟩ := Option.bind_eq_some_iff.1 h
    obtain ⟨es, hes, rfl⟩ := Option.map_eq_some_iff.1 h
    intro e he
    obtain ⟨m, _, _, hm⟩ := mem_of_readValues? hes (Dictionary.mem_of_mem_ofList he)
    exact Server.fits_of_ofDocument? hm
  | _ => cases h

/-- **A server table is read as it was written.** -/
theorem ofDocument?_toJson {depth : Nat} {t : ServerTable} (h : t.Fits depth) :
    ofDocument? depth (ofJson t.toJson) = some t := by
  have hread : readValues? (Server.ofDocument? depth) (said (t.entries.map fun e => (e.1, e.2.toJson))) =
      some t.entries := by
    rw [said, List.map_map]
    exact readValues?_map (fun s => ofJson s.toJson) fun e he => Server.ofDocument?_toJson (h e he)
  rw [toJson, ofJson, ofDocument?, named?_ofJsonMembers, Option.bind_some, hread, Option.map_some,
    Dictionary.ofList_entries]

end ServerTable

/-! ## 4. The whole -/

namespace Configuration

/-- All servers fit, and so does everything unknown. -/
structure Fits (depth : Nat) (c : Configuration) : Prop where
  servers : c.servers.Fits (depth - 2)
  extra : Unknown ("settings" :: serverKeys) depth c.extra

theorem fits_of_ofDocument? {d : Document} {c : Configuration} (h : ofDocument? d = some c) :
    c.Fits (depthLimit - 1) := by
  cases d with
  | object ms =>
    obtain ⟨named, _, h⟩ := Option.bind_eq_some_iff.1 h
    unfold ofFields? at h
    obtain ⟨first, _, h⟩ := Option.bind_eq_some_iff.1 h
    cases first
    all_goals
      obtain ⟨_, _, h⟩ := Option.bind_eq_some_iff.1 h
      obtain ⟨field, _, h⟩ := Option.bind_eq_some_iff.1 h
      rcases field with _ | d
      all_goals
        obtain ⟨servers, hservers, h⟩ := Option.bind_eq_some_iff.1 h
        obtain ⟨extra, hextra, h⟩ := Option.bind_eq_some_iff.1 h
        cases h
      · cases hservers
        exact ⟨fun _ he => absurd he List.not_mem_nil, unknown_of_others? hextra⟩
      · exact ⟨ServerTable.fits_of_ofDocument? hservers, unknown_of_others? hextra⟩
  | _ => cases h

/-- **A configuration is read as it was written.** -/
theorem ofDocument?_toJson {c : Configuration} (h : c.Fits (depthLimit - 1)) :
    ofDocument? (ofJson c.toJson) = some c := by
  have hkeys : ∀ m ∈ said c.extra.entries, m.1 ∉ "settings" :: serverKeys := by
    intro m hm
    obtain ⟨e, he, rfl⟩ := List.mem_map.1 hm
    exact (h.extra e he).1
  have hsettings : single? ["settings"] (("settings", ofJson c.settings.toJson) ::
      ("brokers", ofJson c.servers.toJson) :: said c.extra.entries) =
      some (some (ofJson c.settings.toJson)) := by
    refine single?_cons (List.mem_singleton_self _) (List.forall_mem_cons.2 ⟨by simp, ?_⟩)
    exact fun m hm he => hkeys m hm (List.mem_singleton.1 he ▸ List.mem_cons_self)
  have hservers : single? serverKeys (("settings", ofJson c.settings.toJson) ::
      ("brokers", ofJson c.servers.toJson) :: said c.extra.entries) =
      some (some (ofJson c.servers.toJson)) := by
    rw [single?_cons_of_not_mem (by simp [serverKeys])]
    exact single?_cons (by simp [serverKeys]) fun m hm he => hkeys m hm (List.mem_cons_of_mem _ he)
  have hothers : others? ("settings" :: serverKeys) (depthLimit - 1)
      ([("settings", ofJson c.settings.toJson), ("brokers", ofJson c.servers.toJson)] ++
        said c.extra.entries) = some c.extra := others?_written h.extra (by simp [serverKeys])
  have hsaid : said (("settings", c.settings.toJson) :: ("brokers", c.servers.toJson) ::
      c.extra.entries) = ("settings", ofJson c.settings.toJson) ::
      ("brokers", ofJson c.servers.toJson) :: said c.extra.entries := rfl
  rw [List.cons_append, List.cons_append, List.nil_append] at hothers
  rw [toJson, ofJson, ofDocument?, named?_ofJsonMembers, hsaid, Option.bind_some, ofFields?]
  simp only [hsettings, hservers, hothers, Settings.ofDocument?_toJson,
    ServerTable.ofDocument?_toJson h.servers, Option.bind_eq_bind, Option.bind_some, Option.pure_def]

end Configuration

end BrokerCli
