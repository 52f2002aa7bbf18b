import BrokerCli.Json.Document

/-!
# What is kept, is kept again

Reading a configuration keeps values (`Document.toJson?`): keys in order, the later of two members
with one key, no more containers inside one another than allowed. A value that was kept in this way
FITS: said again, it is kept as it is.

* `Dictionary.ofList_entries` -- the entries of a dictionary make up the dictionary;
* `Dictionary.mem_of_mem_ofList` -- a dictionary of entries holds none but these;
* `Json.fits_of_toJson?` -- what is kept of a document fits, by induction on the document.
-/

namespace BrokerCli

/-! ## 1. Dictionaries -/

namespace Dictionary

variable {α : Type}

theorem mem_insertEntry {key : String} {value : α} {es : List (String × α)} {e : String × α}
    (h : e ∈ insertEntry key value es) : e = (key, value) ∨ e ∈ es := by
  induction es with
  | nil => exact Or.inl (List.mem_singleton.1 h)
  | cons f fs ih =>
    unfold insertEntry at h
    split at h
    · exact List.mem_cons.1 h
    split at h
    · exact (List.mem_cons.1 h).imp_right (List.mem_cons_of_mem _)
    · rcases List.mem_cons.1 h with rfl | h
      · exact Or.inr List.mem_cons_self
      · exact (ih h).imp_right (List.mem_cons_of_mem _)

/-- A dictionary of entries holds none but these. -/
theorem mem_of_mem_ofList {es : List (String × α)} {e : String × α} (h : e ∈ (ofList es).entries) :
    e ∈ es := by
  have hfold (d : Dictionary α) : e ∈ (es.foldl (fun d e => d.insert e.1 e.2) d).entries →
      e ∈ d.entries ∨ e ∈ es := by
    clear h
    induction es generalizing d with
    | nil => exact Or.inl
    | cons f fs ih =>
      intro h
      rcases ih _ h with h | h
      · rcases mem_insertEntry h with rfl | h
        · exact Or.inr List.mem_cons_self
        · exact Or.inl h
      · exact Or.inr (List.mem_cons_of_mem _ h)
  exact (hfold empty h).resolve_left List.not_mem_nil

/-- An entry behind all others is written at the end. -/
theorem insertEntry_of_lt {key : String} {value : α} {es : List (String × α)}
    (h : ∀ e ∈ es, e.1 < key) : insertEntry key value es = es ++ [(key, value)] := by
  induction es with
  | nil => rfl
  | cons e es ih =>
    have he := h e List.mem_cons_self
    have hlt : ¬ key < e.1 := fun hk => String.lt_irrefl key (String.lt_trans hk he)
    have hne : key ≠ e.1 := fun hk => String.lt_irrefl key (hk ▸ he)
    rw [insertEntry, if_neg hlt, if_neg hne, ih fun f hf => h f (List.mem_cons_of_mem _ hf)]
    rfl

/-- **The entries of a dictionary make up the dictionary.** -/
theorem ofList_entries (d : Dictionary α) : ofList d.entries = d := by
  have hfold (es : List (String × α)) : ∀ d : Dictionary α,
      (es.map Prod.fst).Pairwise (· < ·) → (∀ e ∈ d.entries, ∀ f ∈ es, e.1 < f.1) →
      (es.foldl (fun d e => d.insert e.1 e.2) d).entries = d.entries ++ es := by
    induction es with
    | nil => exact fun d _ _ => (List.append_nil _).symm
    | cons e es ih =>
      intro d hes hlt
      rw [List.map_cons, List.pairwise_cons] at hes
      have hd : (d.insert e.1 e.2).entries = d.entries ++ [e] :=
        insertEntry_of_lt fun f hf => hlt f hf e List.mem_cons_self
      rw [List.foldl_cons, ih _ hes.2, hd, List.append_assoc, List.singleton_append]
      intro f hf g hg
      rw [hd, List.mem_append, List.mem_singleton] at hf
      rcases hf with hf | rfl
      · exact hlt f hf g (List.mem_cons_of_mem _ hg)
      · exact hes.1 g.1 (List.mem_map_of_mem hg)
  refine ext ?_
  rw [ofList, hfold d.entries empty d.ascending fun e he => absurd he List.not_mem_nil]
  rfl

end Dictionary

/-! ## 2. Values -/

/-- A value that is kept as it is when it is said, where `depth` containers may be opened. -/
def Json.Fits (depth : Nat) (j : Json) : Prop :=
  Document.toJson? depth (Document.ofJson j) = some j

namespace Document

variable {depth : Nat}

theorem toJsonItems?_of_fits {js : List Json} (h : ∀ j ∈ js, j.Fits depth) :
    toJsonItems? depth (ofJsonItems js) = some js := by
  induction js with
  | nil => rfl
  | cons j js ih =>
    have hj : toJson? depth (ofJson j) = some j := h j List.mem_cons_self
    have hjs := ih fun k hk => h k (List.mem_cons_of_mem _ hk)
    simp only [ofJsonItems, toJsonItems?, hj, hjs]

theorem toJsonMembers?_of_fits {ms : List (String × Json)} (h : ∀ m ∈ ms, m.2.Fits depth) :
    toJsonMembers? depth (ofJsonMembers ms) = some ms := by
  induction ms with
  | nil => rfl
  | cons m ms ih =>
    have hm : toJson? depth (ofJson m.2) = some m.2 := h m List.mem_cons_self
    have hms := ih fun k hk => h k (List.mem_cons_of_mem _ hk)
    simp only [ofJsonMembers, ofJsonMember_eq, toJsonMembers?, toJsonMember?, hm, hms, Option.map_some]

mutual

/-- **What is kept of a document fits.** -/
theorem fits_of_toJson? : ∀ (d : Document) {depth : Nat} {j : Json}, toJson? depth d = some j →
    j.Fits depth
  | .null, _, _, h => by
    cases h
    rfl
  | .bool b, _, _, h => by
    cases h
    rfl
  | .number n, _, _, h => by
    obtain ⟨k, _, rfl⟩ := Option.map_eq_some_iff.1 h
    rfl
  | .string s, _, _, h => by
    obtain ⟨t, _, rfl⟩ := Option.map_eq_some_iff.1 h
    rfl
  | .array items, 0, _, h => by cases h
  | .array items, depth + 1, _, h => by
    obtain ⟨js, hjs, rfl⟩ := Option.map_eq_some_iff.1 h
    unfold Json.Fits
    rw [ofJson, toJson?, toJsonItems?_of_fits (fits_of_toJsonItems? items hjs)]
    rfl
  | .object members, 0, _, h => by cases h
  | .object members, depth + 1, _, h => by
    obtain ⟨ms, hms, rfl⟩ := Option.map_eq_some_iff.1 h
    have hfits (m : String × Json) (hm : m ∈ (Dictionary.ofList ms).entries) : m.2.Fits depth :=
      fits_of_toJsonMembers? members hms m (Dictionary.mem_of_mem_ofList hm)
    unfold Json.Fits Json.ofMembers
    rw [ofJson, toJson?, toJsonMembers?_of_fits hfits, Option.map_some, Json.ofMembers,
      Dictionary.ofList_entries]

theorem fits_of_toJsonItems? : ∀ (ds : List Document) {depth : Nat} {js : List Json},
    toJsonItems? depth ds = some js → ∀ j ∈ js, j.Fits depth
  | [], _, _, h => by
    cases h
    exact fun _ hj => absurd hj List.not_mem_nil
  | d :: ds, _, _, h => by
    rw [toJsonItems?] at h
    split at h
    · rename_i j js hj hjs
      cases h
      intro k hk
      rcases List.mem_cons.1 hk with rfl | hk
      · exact fits_of_toJson? d hj
      · exact fits_of_toJsonItems? ds hjs k hk
    · cases h

theorem fits_of_toJsonMembers? : ∀ (ms : List (Option String × Document)) {depth : Nat}
    {js : List (String × Json)}, toJsonMembers? depth ms = some js → ∀ m ∈ js, m.2.Fits depth
  | [], _, _, h => by
    cases h
    exact fun _ hj => absurd hj List.not_mem_nil
  | m :: ms, _, _, h => by
    rw [toJsonMembers?] at h
    split at h
    · rename_i j js hj hjs
      cases h
      intro k hk
      rcases List.mem_cons.1 hk with rfl | hk
      · exact fits_of_toJsonMember? m hj
      · exact fits_of_toJsonMembers? ms hjs k hk
    · cases h

theorem fits_of_toJsonMember? : ∀ (m : Option String × Document) {depth : Nat} {j : String × Json},
    toJsonMember? depth m = some j → j.2.Fits depth
  | (some key, d), _, _, h => by
    obtain ⟨j, hj, rfl⟩ := Option.map_eq_some_iff.1 h
    exact fits_of_toJson? d hj
  | (none, d), _, _, h => by cases h

end

end Document

end BrokerCli
