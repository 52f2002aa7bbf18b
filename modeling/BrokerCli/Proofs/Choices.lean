import Mathlib.Data.List.Chain
import BrokerCli.Proofs.Acceptance

/-!
# Choices and letter case

A flag with choices is checked against them with its value in lower case, and the choices as they are
declared. What the check comes to, beside the rule that neither case matters:

* `Text.lower_lower` -- lower case changes nothing of a text in lower case: what a run of the table leads
  to is in no run itself (`Text.settled_lowerRuns`);
* `Flag.misses_iff` -- a value is refused when every choice that it is, the case of letters aside, changes
  in lower case;
* `Complaint.Offers` -- the line about a refused value, word by word, for none, one, two and more choices;
* `CommandLine.refused_choices` -- for every list of flags: which lines are shown, in which order, and when
  the list is accepted. For choices in lower case this is the rule.

`CommandLine.refused_in_capitals` shows that the rule fails where choices are declared in capitals.
-/

namespace BrokerCli

namespace Text

/-! ## 1. The lower case of lower case -/

/-- None of the runs, which are in ascending order, holds a character from `low` to `high`; with `even` only
    the characters an even number of places behind `low` count. -/
def unmoved (even : Bool) (low high : Nat) : List CaseRun → Bool
  | [] => true
  | r :: rs => Nat.ble (high + 1) r.first ||
      ((Nat.ble (r.last + 1) low ||
          (even && (Nat.beq r.step 2 && Nat.beq ((low - r.first) % 2) 1))) &&
        unmoved even low high rs)

theorem target?_of_unmoved {even : Bool} {low high m : Nat} {runs : List CaseRun}
    (h : unmoved even low high runs = true) (hasc : runs.Pairwise fun r q => r.first < q.first)
    (hlow : low ≤ m) (hhigh : m ≤ high) (heven : even = true → (m - low) % 2 = 0) :
    ∀ r ∈ runs, r.target? m = none := by
  induction runs with
  | nil => exact nofun
  | cons r rs ih =>
    obtain ⟨hfirst, hrest⟩ := List.pairwise_cons.1 hasc
    have hbelow (q : CaseRun) (hq : m < q.first) : q.target? m = none := by
      rw [CaseRun.target?, if_neg]
      omega
    rw [unmoved, Bool.or_eq_true, Nat.ble_eq] at h
    rcases h with h | h
    · exact List.forall_mem_cons.2 ⟨hbelow r (by omega), fun q hq =>
        hbelow q (by have := hfirst q hq; omega)⟩
    · simp only [Bool.and_eq_true, Bool.or_eq_true, Nat.ble_eq] at h
      refine List.forall_mem_cons.2 ⟨?_, ih h.2 hrest⟩
      -- the run ends before `low`, or it passes over `m`, which is an odd number of places behind its first
      rw [CaseRun.target?, if_neg]
      rcases h.1 with hlast | ⟨he, hstep, hodd⟩
      · omega
      · have hm := heven he
        have hodd := Nat.eq_of_beq_eq_true hodd
        rw [Nat.eq_of_beq_eq_true hstep]
        omega

/-- What the runs make of a character, none of them changes again: their images are lower case letters, and
    so are no ASCII capitals, not the dotted capital I, and in none of the runs. -/
def settled (r : CaseRun) : Bool :=
  let low := (r.first + r.shift).toNat
  let high := (r.last + r.shift).toNat
  Nat.ble 91 low && (Nat.ble high 0x12F || Nat.ble 0x131 low) &&
    (Nat.ble high 0xD7FF || (Nat.ble 0xE000 low && Nat.ble high 0x10FFFF)) &&
    unmoved (Nat.beq r.step 2 || Nat.beq r.first r.last) low high lowerRuns

theorem settled_lowerRuns : ∀ r ∈ lowerRuns, settled r = true :=
  List.all_eq_true.1 (by decide +kernel)

theorem ascending_lowerRuns : lowerRuns.Pairwise fun r q => r.first < q.first := by
  have hchain : lowerRuns.IsChain fun r q => r.first < q.first := by decide +kernel
  have : Trans (fun r q : CaseRun => r.first < q.first) (fun r q : CaseRun => r.first < q.first)
      (fun r q : CaseRun => r.first < q.first) := ⟨fun h h' => Nat.lt_trans h h'⟩
  exact hchain.pairwise

/-- A character that lower case leaves as it is. -/
def IsLow (c : Char) : Prop := c ≠ 'Σ' ∧ lowerChar c = [c]
deriving Decidable

/-- Only the ASCII capitals, which end at 90, have another lower case in ASCII. -/
theorem toLower_of_le {c : Char} (h : 91 ≤ c.toNat) : c.toLower = c := by
  refine dif_neg fun hletter => ?_
  have hz : c.toNat ≤ 90 := UInt32.le_iff_toNat_le.1 hletter.2
  omega

theorem isLow_toLower {c : Char} (h : c.toNat < 128) : IsLow c.toLower := by
  have hall : ∀ n < 128, IsLow (Char.ofNat n).toLower := by decide +kernel
  simpa only [Char.ofNat_toNat] using hall c.toNat h

theorem runTarget?_eq_none {runs : List CaseRun} {n : Nat} (h : ∀ r ∈ runs, r.target? n = none) :
    runTarget? runs n = none := by
  rw [runTarget?, Option.map_eq_none_iff, List.findSome?_eq_none_iff]
  exact h

/-- A character that is no ASCII capital, not the dotted capital I, and in no run. -/
theorem isLow_of_target? {c : Char} (hcapital : 91 ≤ c.toNat) (hdot : c ≠ 'İ')
    (hnone : ∀ r ∈ lowerRuns, r.target? c.toNat = none) : IsLow c := by
  constructor
  · rintro rfl
    have hmoves : lowerRuns.any (fun r => (r.target? 'Σ'.toNat).isSome) = true := by decide +kernel
    obtain ⟨r, hr, hmoved⟩ := List.any_eq_true.1 hmoves
    rw [hnone r hr] at hmoved
    cases hmoved
  · rw [lowerChar, toLower_of_le hcapital, if_neg hdot, runTarget?_eq_none hnone]
    exact ite_self _

/-- What the runs make of a character, lower case leaves as it is. -/
theorem isLow_of_runTarget? {n : Nat} {d : Char} (h : runTarget? lowerRuns n = some d) : IsLow d := by
  obtain ⟨m, hm, rfl⟩ := Option.map_eq_some_iff.1 h
  obtain ⟨r, hr, ht⟩ := List.exists_of_findSome?_eq_some hm
  rw [CaseRun.target?] at ht
  split at ht
  · rename_i hn
    have hs := settled_lowerRuns r hr
    simp only [settled, Bool.and_eq_true, Bool.or_eq_true, Nat.ble_eq] at hs
    obtain ⟨⟨⟨hcapital, hdotted⟩, hscalar⟩, hun⟩ := hs
    have hm := Option.some.inj ht
    have hvalid : m.isValidChar := by
      unfold Nat.isValidChar
      omega
    have htoNat : (Char.ofNat m).toNat = m := by
      rw [Char.ofNat, dif_pos hvalid]
      rfl
    refine isLow_of_target? (by omega) (fun e => ?_) (htoNat.symm ▸ ?_)
    · rw [e] at htoNat
      have hm : m = 0x130 := htoNat.symm
      omega
    · refine target?_of_unmoved hun ascending_lowerRuns (by omega) (by omega) fun heven => ?_
      rcases Bool.or_eq_true_iff.1 heven with hstep | hsingle
      · have hstep := Nat.eq_of_beq_eq_true hstep
        rw [hstep] at hn
        omega
      · have hsingle := Nat.eq_of_beq_eq_true hsingle
        omega
  · cases ht

/-- The characters that lower case has from elsewhere: those of the dotted capital I, and of the capital
    sigma. -/
theorem isLow_others : ∀ c ∈ ['i', '\u0307', 'ς', 'σ'], IsLow c := by
  have hun : ['i', '\u0307', 'ς', 'σ'].all (fun c =>
      Nat.ble 91 c.toNat && unmoved false c.toNat c.toNat lowerRuns) = true := by decide +kernel
  intro c hc
  obtain ⟨hcapital, hun⟩ := Bool.and_eq_true_iff.1 (List.all_eq_true.1 hun c hc)
  refine isLow_of_target? (Nat.le_of_ble_eq_true hcapital) ?_
    (target?_of_unmoved hun ascending_lowerRuns (Nat.le_refl _) (Nat.le_refl _) nofun)
  rintro rfl
  exact absurd hc (by decide)

theorem isLow_of_mem_lowerChar {c d : Char} (hc : c ≠ 'Σ') (hd : d ∈ lowerChar c) : IsLow d := by
  rw [lowerChar] at hd
  split at hd
  · rename_i hascii
    rw [List.mem_singleton.1 hd]
    exact isLow_toLower hascii
  split at hd
  · exact isLow_others d (List.mem_append_left ['ς', 'σ'] hd)
  · rename_i hascii hdot
    rw [List.mem_singleton.1 hd]
    cases hrun : runTarget? lowerRuns c.toNat with
    | some d => exact isLow_of_runTarget? hrun
    | none => exact ⟨hc, by rw [Option.getD_none, lowerChar, if_neg hascii, if_neg hdot, hrun]; rfl⟩

theorem lowerAfter_of_isLow {cs : List Char} (before : List Char) (h : ∀ c ∈ cs, IsLow c) :
    lowerAfter before cs = cs := by
  induction cs generalizing before with
  | nil => rfl
  | cons c cs ih =>
    obtain ⟨⟨hsigma, hlow⟩, hcs⟩ := List.forall_mem_cons.1 h
    rw [lowerAfter, if_neg hsigma, hlow, ih (c :: before) hcs]
    rfl

theorem isLow_of_mem_lowerAfter {before cs : List Char} {d : Char} (hd : d ∈ lowerAfter before cs) :
    IsLow d := by
  induction cs generalizing before with
  | nil => cases hd
  | cons c cs ih =>
    rw [lowerAfter, List.mem_append] at hd
    rcases hd with hd | hd
    · split at hd
      · rw [List.mem_singleton.1 hd, lowerSigma]
        split
        · exact isLow_others 'ς' (by decide)
        · exact isLow_others 'σ' (by decide)
      · rename_i hc
        exact isLow_of_mem_lowerChar hc hd
    · exact ih hd

/-- **Lower case changes nothing of a text in lower case.** -/
@[simp] theorem lower_lower (s : String) : lower (lower s) = lower s := by
  rw [lower, lower, String.toList_ofList, lowerAfter_of_isLow [] fun _ => isLow_of_mem_lowerAfter]

end Text

/-! ## 2. What a flag may be given -/

namespace Flag

/-- A flag that is given a value and has choices. -/
structure Chooses (f : Flag) (value : String) (choices : List String) : Prop where
  isSet : f.isSet = true
  declared : ∃ features, f.content = .text value features ∧ features.choices = some choices

variable {f : Flag} {value : String} {choices : List String}

/-- A flag whose value, in lower case, is none of its choices. -/
def Misses (f : Flag) : Prop := ∃ value choices, f.Chooses value choices ∧ Text.lower value ∉ choices

/-- A flag whose value is one of its choices, the case of letters aside, if it has any. -/
def Meets (f : Flag) : Prop :=
  ∀ value choices, f.Chooses value choices → ∃ choice ∈ choices, Text.lower choice = Text.lower value

/-- **Which values are refused**: those that are no choice but for case, and those whose choices all change
    in lower case. -/
theorem misses_iff : f.Misses ↔ ∃ value choices, f.Chooses value choices ∧
    ∀ choice ∈ choices, Text.lower choice = Text.lower value → Text.lower choice ≠ choice := by
  refine exists_congr fun value => exists_congr fun choices => and_congr_right fun _ => ?_
  constructor
  · intro hmiss choice hmem hsame hlow
    exact hmiss (hsame ▸ hlow.symm ▸ hmem)
  · intro hall hmem
    exact hall _ hmem (Text.lower_lower value) (Text.lower_lower value)

/-- A flag that is not refused meets the rule. -/
theorem meets_of_not_misses (h : ¬ f.Misses) : f.Meets := by
  intro value choices hf
  refine ⟨Text.lower value, ?_, Text.lower_lower value⟩
  by_contra hmem
  exact h ⟨value, choices, hf, hmem⟩

/-- Where choices are in lower case, a flag that meets the rule is not refused. -/
theorem not_misses_of_meets (hlow : ∀ value choices, f.Chooses value choices →
    ∀ choice ∈ choices, Text.lower choice = choice) (h : f.Meets) : ¬ f.Misses := by
  rintro ⟨value, choices, hf, hmiss⟩
  obtain ⟨choice, hmem, hsame⟩ := h value choices hf
  exact hmiss (hsame ▸ (hlow value choices hf choice hmem).symm ▸ hmem)

end Flag

/-! ## 3. What is shown -/

namespace Check

theorem missedChoices?_eq_some_iff {f : Flag} {choices : List String} :
    missedChoices? f = some choices ↔ ∃ value, f.Chooses value choices ∧ Text.lower value ∉ choices := by
  unfold missedChoices?
  constructor
  · intro h
    split at h
    · rename_i value features hf
      split at h
      · rename_i all hc
        split at h
        · rename_i hmiss
          cases h
          obtain ⟨hset, hmiss⟩ := Bool.and_eq_true_iff.1 hmiss
          exact ⟨value, ⟨hset, features, hf, hc⟩, by simpa using hmiss⟩
        · cases h
      · cases h
    · cases h
  · rintro ⟨value, ⟨hset, features, hf, hc⟩, hmiss⟩
    simp [hf, hc, hset, hmiss]

theorem isSome_missedChoices? {f : Flag} : (missedChoices? f).isSome = true ↔ f.Misses := by
  rw [Option.isSome_iff_exists]
  constructor
  · rintro ⟨choices, h⟩
    obtain ⟨value, hf⟩ := missedChoices?_eq_some_iff.1 h
    exact ⟨value, choices, hf⟩
  · rintro ⟨value, choices, hf⟩
    exact ⟨choices, missedChoices?_eq_some_iff.2 ⟨value, hf⟩⟩

instance : DecidablePred Flag.Misses := fun _ => decidable_of_iff _ isSome_missedChoices?

/-- Each flag that is refused is complained about once, in order. -/
theorem missedChoices_eq (fs : FlagList) : missedChoices fs =
    (fs.filter (·.Misses)).map fun f => .noChoice f.name (f.features.choices.getD []) := by
  induction fs with
  | nil => rfl
  | cons f fs ih =>
    unfold missedChoices at ih ⊢
    rw [List.filterMap_cons, List.filter_cons]
    cases h : missedChoices? f with
    | none =>
      have hf : ¬ f.Misses := fun hf => by simp [← isSome_missedChoices?, h] at hf
      simpa [hf] using ih
    | some choices =>
      obtain ⟨value, hc, hmiss⟩ := missedChoices?_eq_some_iff.1 h
      have hf : f.Misses := ⟨value, choices, hc, hmiss⟩
      obtain ⟨features, hcontent, hchoices⟩ := hc.declared
      have hfeatures : f.features.choices = some choices := by
        rw [Flag.features, hcontent]
        exact hchoices
      simpa [hf, hfeatures] using ih

end Check

/-- What a user reads who did not choose one of these, in so many words. -/
inductive Complaint.Offers (name : String) : List String → String → Prop where
  | nothing : Offers name [] ("checkChoices001 no choices for --" ++ name ++ "\n")
  | one (choice : String) :
    Offers name [choice] ("checkChoices001 specify " ++ choice ++ " to --" ++ name ++ "\n")
  | two (first second : String) : Offers name [first, second]
    ("checkChoices001 specify either " ++ first ++ " or " ++ second ++ " to --" ++ name ++ "\n")
  | more {others : List String} (h : 2 ≤ others.length) (last : String) : Offers name (others ++ [last])
    ("checkChoices001 specify one of " ++ ", ".intercalate others ++ " and " ++ last ++ " to --" ++ name ++
      "\n")

theorem Complaint.offers_of_toList {name text text' : String} {choices : List String}
    (h : Offers name choices text') (ht : text.toList = text'.toList) : Offers name choices text := by
  rw [String.toList_inj.1 ht]
  exact h

theorem Complaint.offers_line (name : String) (choices : List String) :
    Offers name choices (noChoice name choices).line := by
  rw [line_eq]
  dsimp only
  unfold choicesText
  split
  · refine offers_of_toList .nothing ?_
    simp
  · refine offers_of_toList (.one _) ?_
    simp
  · refine offers_of_toList (.two _ _) ?_
    simp
  · rename_i hnothing hone htwo
    obtain rfl | ⟨others, last, rfl⟩ := List.eq_nil_or_concat choices
    · exact absurd rfl hnothing
    have hmore : 2 ≤ others.length := by
      match others with
      | [] => exact absurd rfl (hone last)
      | [first] => exact absurd rfl (htwo first last)
      | _ :: _ :: rest => exact Nat.le_add_left 2 rest.length
    rw [List.concat_eq_append]
    refine offers_of_toList (.more hmore last) ?_
    simp

namespace CommandLine

/-- **What checking the choices comes to**, for every list of flags.

    Every flag that is refused is shown by one line, in the order of the list, and nothing else happens; the
    line says what there is to choose from. The list is accepted when no flag is refused. A value is refused
    when every choice that it is, the case of letters aside, changes in lower case. So what is accepted meets
    the rule that case does not matter; what meets the rule is accepted if the choices are in lower case. -/
theorem refused_choices (fs : FlagList) (p : Execution) :
    let r := (refuseIfAny (Check.missedChoices fs) .missedChoices).perform p
    r.2 = { p with transcript := p.transcript ++ (fs.filter (·.Misses)).map fun f =>
        .complained (Complaint.noChoice f.name (f.features.choices.getD [])).line } ∧
      (∀ f ∈ fs, Complaint.Offers f.name (f.features.choices.getD [])
        (Complaint.noChoice f.name (f.features.choices.getD [])).line) ∧
      (∀ f ∈ fs, f.Misses ↔ ∃ value choices, f.Chooses value choices ∧
        ∀ choice ∈ choices, Text.lower choice = Text.lower value → Text.lower choice ≠ choice) ∧
      (r.1 = .ok () ↔ ∀ f ∈ fs, ¬ f.Misses) ∧
      (r.1 = .error .missedChoices ↔ ∃ f ∈ fs, f.Misses) ∧
      (r.1 = .ok () → ∀ f ∈ fs, f.Meets) ∧
      ((∀ f ∈ fs, ∀ value choices, f.Chooses value choices → ∀ choice ∈ choices,
        Text.lower choice = choice) → (r.1 = .ok () ↔ ∀ f ∈ fs, f.Meets)) := by
  intro r
  have hr : r = (if !(Check.missedChoices fs).isEmpty then .error .missedChoices else .ok (),
      shown p (Check.missedChoices fs)) := perform_refuseIfAny p _ _
  have hempty : (Check.missedChoices fs).isEmpty = true ↔ ∀ f ∈ fs, ¬ f.Misses := by
    rw [Check.missedChoices_eq, List.isEmpty_iff, List.map_eq_nil_iff, List.filter_eq_nil_iff]
    simp only [decide_eq_true_eq]
  have hok : r.1 = .ok () ↔ ∀ f ∈ fs, ¬ f.Misses := by
    rw [← hempty, hr]
    cases (Check.missedChoices fs).isEmpty <;> simp
  refine ⟨?_, fun f _ => Complaint.offers_line _ _, fun f _ => Flag.misses_iff, hok, ?_,
    fun h f hf => ?_, fun hlow => ?_⟩
  · rw [hr, Check.missedChoices_eq, shown, List.map_map]
    rfl
  · have hnot : (∃ f ∈ fs, f.Misses) ↔ ¬ r.1 = .ok () := by
      rw [hok]
      push Not
      rfl
    rw [hnot, hr]
    cases (Check.missedChoices fs).isEmpty <;> simp
  · exact Flag.meets_of_not_misses (hok.1 h f hf)
  · rw [hok]
    exact ⟨fun h f hf => Flag.meets_of_not_misses (h f hf),
      fun h f hf => Flag.not_misses_of_meets (hlow f hf) (h f hf)⟩

/-- **A choice that is declared in capitals is refused, as it is written.** -/
theorem refused_in_capitals : ¬ ∀ (fs : FlagList) (p : Execution),
    ((refuseIfAny (Check.missedChoices fs) .missedChoices).perform p).1 = .ok () ↔
      ∀ f ∈ fs, f.Meets := by
  intro h
  let order : Flag :=
    { name := "order", isSet := true, content := .text "ASC" { choices := some ["ASC", "DESC"] } }
  have hmeets : order.Meets := by
    rintro value choices ⟨_, features, hf, hc⟩
    cases hf
    cases hc
    exact ⟨"ASC", List.mem_cons_self, rfl⟩
  have hok := (h [order] {}).2 fun f hf => List.mem_singleton.1 hf ▸ hmeets
  have hrefused :
      ((refuseIfAny (Check.missedChoices [order]) .missedChoices).perform {}).1.isOk = false := by
    decide +kernel
  rw [hok] at hrefused
  cases hrefused

end CommandLine

end BrokerCli
