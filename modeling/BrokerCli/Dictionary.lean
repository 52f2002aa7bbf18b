/-!
# Dictionaries with their keys in order

The server table, the unknown keys of a configuration and the unknown keys of a server record are
all dictionaries whose keys are written in ascending order. A `Dictionary` is the list of its
entries, and its type says that the keys ascend: so a key occurs once, and two dictionaries with
the same entries are EQUAL.

* `get?` reads one entry, `insert` writes one (the last write wins), `ofList` writes many;
* `get?_insert` says what a write does to every later read.

Texts are in the order of their code points, which is also the order of their UTF-8 bytes.
-/

namespace BrokerCli

/-- Entries in strictly ascending order of their keys. -/
structure Dictionary (α : Type) where
  entries : List (String × α)
  ascending : (entries.map Prod.fst).Pairwise (· < ·)

namespace Dictionary

variable {α : Type}

instance [DecidableEq α] : DecidableEq (Dictionary α) := fun d e =>
  if h : d.entries = e.entries then isTrue (by cases d; cases e; simp_all)
  else isFalse fun he => h (by rw [he])

/-- The dictionary without entries. -/
def empty : Dictionary α := ⟨[], .nil⟩

instance : Inhabited (Dictionary α) := ⟨empty⟩

@[ext] theorem ext {d e : Dictionary α} (h : d.entries = e.entries) : d = e := by
  cases d; cases e; simp_all

/-- The keys, in order. -/
def keys (d : Dictionary α) : List String := d.entries.map Prod.fst

/-- The values, in the order of their keys. -/
def values (d : Dictionary α) : List α := d.entries.map Prod.snd

/-- How many entries there are. -/
def size (d : Dictionary α) : Nat := d.entries.length

/-- Whether there is no entry. -/
def isEmpty (d : Dictionary α) : Bool := d.entries.isEmpty

/-- The value under a key. -/
def get? (d : Dictionary α) (key : String) : Option α :=
  (d.entries.find? (·.1 = key)).map Prod.snd

/-- Whether a key has a value. -/
def contains (d : Dictionary α) (key : String) : Bool := (d.get? key).isSome

/-! ## 1. Writing one entry -/

/-- The entries with `value` under `key`, at the place that keeps the order. -/
def insertEntry (key : String) (value : α) : List (String × α) → List (String × α)
  | [] => [(key, value)]
  | e :: es =>
    if key < e.1 then (key, value) :: e :: es
    else if key = e.1 then (key, value) :: es
    else e :: insertEntry key value es

theorem mem_keys_insertEntry {key k : String} {value : α} {es : List (String × α)}
    (h : k ∈ (insertEntry key value es).map Prod.fst) : k = key ∨ k ∈ es.map Prod.fst := by
  induction es with
  | nil => simp [insertEntry] at h; exact Or.inl h
  | cons e es ih =>
    unfold insertEntry at h
    split at h
    · simpa using h
    · split at h
      · rename_i hk
        simp only [List.map_cons, List.mem_cons] at h ⊢
        rcases h with h | h
        · exact Or.inl h
        · exact Or.inr (Or.inr h)
      · simp only [List.map_cons, List.mem_cons] at h ⊢
        rcases h with h | h
        · exact Or.inr (Or.inl h)
        · exact (ih h).imp_right Or.inr

theorem ascending_insertEntry {key : String} {value : α} {es : List (String × α)}
    (h : (es.map Prod.fst).Pairwise (· < ·)) :
    ((insertEntry key value es).map Prod.fst).Pairwise (· < ·) := by
  induction es with
  | nil => simp [insertEntry]
  | cons e es ih =>
    rw [List.map_cons, List.pairwise_cons] at h
    unfold insertEntry
    split
    · rename_i hlt
      rw [List.map_cons, List.pairwise_cons]
      refine ⟨fun k hk => ?_, by rw [List.map_cons, List.pairwise_cons]; exact h⟩
      rcases List.mem_cons.1 hk with rfl | hk
      · exact hlt
      · exact String.lt_trans hlt (h.1 k hk)
    · split
      · rename_i heq
        rw [List.map_cons, List.pairwise_cons]
        exact ⟨fun k hk => heq ▸ h.1 k hk, h.2⟩
      · rename_i hnlt hne
        rw [List.map_cons, List.pairwise_cons]
        refine ⟨fun k hk => ?_, ih h.2⟩
        rcases mem_keys_insertEntry hk with rfl | hk
        · exact Classical.byContradiction fun hc =>
            hne (String.le_antisymm (String.not_lt.1 hc) (String.not_lt.1 hnlt))
        · exact h.1 k hk

/-- The dictionary with `value` under `key`, whatever stood there before. -/
def insert (d : Dictionary α) (key : String) (value : α) : Dictionary α where
  entries := insertEntry key value d.entries
  ascending := ascending_insertEntry d.ascending

/-- The dictionary of a list of entries: of two entries under one key the later one counts. -/
def ofList (entries : List (String × α)) : Dictionary α :=
  entries.foldl (fun d e => d.insert e.1 e.2) empty

/-! ## 2. Reading what was written -/

theorem find?_insertEntry {key k : String} {value : α} {es : List (String × α)} :
    (insertEntry key value es).find? (·.1 = k) =
      if k = key then some (key, value) else es.find? (·.1 = k) := by
  induction es with
  | nil => by_cases h : key = k <;> simp [insertEntry, h, eq_comm]
  | cons e es ih =>
    unfold insertEntry
    split
    · by_cases h : key = k <;> simp [List.find?_cons, h, eq_comm]
    · split
      · rename_i _ he
        by_cases h : k = key
        · simp [h]
        · have hk : key ≠ k := fun e => h e.symm
          have hek : e.1 ≠ k := fun e => h (e.symm.trans he.symm)
          simp [h, hk, hek]
      · rename_i _ hne
        by_cases he : e.1 = k
        · have : k ≠ key := fun hk => hne (hk.symm.trans he.symm)
          simp [he, this]
        · simp [he, ih]

/-- A write is seen under its own key, and under no other. -/
@[simp] theorem get?_insert {d : Dictionary α} {key k : String} {value : α} :
    (d.insert key value).get? k = if k = key then some value else d.get? k := by
  by_cases h : k = key <;> simp [get?, insert, find?_insertEntry, h]

@[simp] theorem get?_empty {k : String} : (empty : Dictionary α).get? k = none := rfl

end Dictionary

end BrokerCli
