import BrokerCli.Proofs.Grammar

/-!
# The reader reads the grammar

The loops of the reader work on a cursor; what they read is what the grammar says about the
arguments to come (`Cursor.unread`):

* `Flag.takes_of_give`, `Flag.give_of_takes` -- one option with its value. What a flag for truth
  values puts back is as if it had never been looked at;
* `Globals.entersAll_of_read`, `Globals.read_of_entersAll` -- the options of the tool;
* `Descent.walks_of_walk`, `Descent.walk_of_walks` -- the way down to a command.
-/

namespace BrokerCli

open Grammar

/-! ## 1. The cursor -/

namespace Cursor

/-- Where an argument is to come, a step forward meets it. -/
theorem next_of_unread {c : Cursor} {arg : String} {rest : List String}
    (h : c.unread = arg :: rest) :
    ∃ behind, c.next = (some arg, behind) ∧ behind.unread = rest := by
  have hp : c.peek? = some arg := by rw [peek?_eq_head?_unread, h, List.head?_cons]
  have hb : c.next.2.unread = rest := by rw [unread_next, h, List.tail_cons]
  exact ⟨c.next.2, Prod.ext hp rfl, hb⟩

/-- Where nothing is to come, a step forward meets nothing. -/
theorem next_of_unread_nil {c : Cursor} (h : c.unread = []) : ∃ behind, c.next = (none, behind) := by
  have hp : c.peek? = none := by rw [peek?_eq_head?_unread, h, List.head?_nil]
  exact ⟨c.next.2, Prod.ext hp rfl⟩

/-- Where the trigger of completion is not to come, it is neither the next argument nor the one after. -/
theorem untriggered {c behind : Cursor} {arg : String} (hn : c.next = (some arg, behind))
    (ht : Completion.trigger ∉ c.unread) :
    arg ≠ Completion.trigger ∧ behind.peek? ≠ some Completion.trigger := by
  rw [unread_of_next hn] at ht
  refine ⟨fun h => ht (h ▸ List.mem_cons_self), fun h => ht (List.mem_cons_of_mem _ ?_)⟩
  rw [peek?_eq_head?_unread] at h
  exact List.mem_of_head? h

/-- Where the trigger of completion is not to come, it does not come later on either. -/
theorem untriggered_of_suffix {c behind : Cursor} (h : behind.unread <:+ c.unread)
    (ht : Completion.trigger ∉ c.unread) : Completion.trigger ∉ behind.unread :=
  fun hm => ht (h.mem hm)

/-- What comes behind the next argument is the end of what is to come. -/
theorem suffix_of_next {c behind : Cursor} {arg : String} (hn : c.next = (some arg, behind)) :
    behind.unread <:+ c.unread := by
  rw [unread_of_next hn]
  exact List.suffix_cons arg behind.unread

/-- An argument that is put back is to come again. -/
theorem back_of_next {c behind : Cursor} {arg : String} (h : c.next = (some arg, behind)) :
    behind.back.2 = c := by
  have hb : c.next.2 = behind := congrArg Prod.snd h
  rw [← hb]
  exact back_next (congrArg Prod.fst h)

end Cursor

/-! ## 2. One option -/

namespace Flag

/-- An option takes the value that the grammar says, and leaves the rest to come. -/
theorem takes_of_give {f f' : Flag} {c c' : Cursor} (h : f.give c = .ok (f', c')) :
    ∃ content value, Takes f value c'.unread content ∧ f' = f.setTo content ∧
      c.unread = value.toList ++ c'.unread := by
  unfold give at h
  split at h
  · rename_i hf
    split at h
    · rename_i s _ hn
      cases h
      exact ⟨_, some s, .text hf, rfl, Cursor.unread_of_next hn⟩
    · cases h
  · rename_i hf
    split at h
    · rename_i s _ hn
      rw [assign_text_of_number hf] at h
      cases hs : Text.readInt64? s with
      | some n =>
        rw [hs] at h
        cases h
        exact ⟨_, some s, .number hf hs, rfl, Cursor.unread_of_next hn⟩
      | none =>
        rw [hs] at h
        cases h
    · cases h
  · rename_i hf
    split at h
    · rename_i s hp
      rw [assign_text_of_truth hf] at h
      cases hs : truthWord? s with
      | some b =>
        rw [hs] at h
        cases h
        exact ⟨_, some s, .word hf hs, rfl, Cursor.unread_of_next (Prod.ext hp rfl)⟩
      | none =>
        rw [hs] at h
        cases h
        rw [Cursor.back_next hp]
        refine ⟨_, none, .bare hf ?_, rfl, rfl⟩
        rw [← Cursor.peek?_eq_head?_unread, hp]
        exact hs
    · rename_i hp
      cases h
      refine ⟨_, none, .bare hf ?_, rfl, rfl⟩
      rw [← Cursor.peek?_eq_head?_unread, hp]
      rfl

/-- What the grammar says that a flag takes, its option takes. -/
theorem give_of_takes {f : Flag} {value : Option String} {rest : List String} {content : FlagContent}
    {c : Cursor} (h : Takes f value rest content) (hc : c.unread = value.toList ++ rest) :
    ∃ c', f.give c = .ok (f.setTo content, c') ∧ c'.unread = rest := by
  unfold give
  cases h with
  | text hf =>
    obtain ⟨c', hn, hr⟩ := Cursor.next_of_unread hc
    exact ⟨c', by rw [hf, hn], hr⟩
  | number hf hs =>
    obtain ⟨c', hn, hr⟩ := Cursor.next_of_unread hc
    refine ⟨c', ?_, hr⟩
    simp only [hf, hn, assign_text_of_number hf, hs]
  | word hf hs =>
    obtain ⟨c', hn, hr⟩ := Cursor.next_of_unread hc
    have hp : c.peek? = some _ := congrArg Prod.fst hn
    refine ⟨c', ?_, hr⟩
    simp only [hf, hp, assign_text_of_truth hf, hs, hn]
  | bare hf hr =>
    refine ⟨c, ?_, hc⟩
    have hu : c.unread = rest := hc
    cases hp : c.peek? with
    | none => simp only [hf]
    | some s =>
      have hs : truthWord? s = none := by
        rw [← hu, ← Cursor.peek?_eq_head?_unread, hp] at hr
        exact hr
      simp only [hf, assign_text_of_truth hf, hs, Cursor.back_next hp]

end Flag

namespace FlagList

/-- An option that is applied is entered in the ledger of the flags. -/
theorem enters_of_apply {l : Ledger} {gs : FlagList} {arg : String} {o : OptionToken} {c c' : Cursor}
    (ho : OptionToken.ofArgument? arg = some o) (h : l.flags.apply o c = .ok (gs, c')) :
    ∃ value l', Enters l ⟨arg, value⟩ c'.unread l' ∧ l'.flags = gs ∧
      c.unread = value.toList ++ c'.unread := by
  unfold apply at h
  split at h
  · cases h
  · rename_i f hf
    split at h
    · rename_i f' c'' hg
      cases h
      obtain ⟨content, value, ht, hs, hu⟩ := Flag.takes_of_give hg
      refine ⟨value, l.record o content, .intro ho hf ht, ?_, hu⟩
      rw [Ledger.flags_record content hf, hs]
    · cases h

/-- A trigger of completion that is to come, but not next, is no value. -/
theorem trigger_mem_of_apply {fs gs : FlagList} {o : OptionToken} {c c' : Cursor}
    (h : fs.apply o c = .ok (gs, c')) (hp : c.peek? ≠ some Completion.trigger)
    (hm : Completion.trigger ∈ c.unread) : Completion.trigger ∈ c'.unread := by
  have hc' : c' = c ∨ c' = c.next.2 := by
    unfold apply at h
    split at h
    · cases h
    · split at h
      · rename_i hg
        cases h
        exact Flag.cursor_of_give hg
      · cases h
  rcases hc' with rfl | rfl
  · exact hm
  · rw [Cursor.unread_next]
    rw [Cursor.peek?_eq_head?_unread] at hp
    cases hu : c.unread with
    | nil =>
      rw [hu] at hm
      exact absurd hm List.not_mem_nil
    | cons a rest =>
      rw [hu] at hm hp
      rcases List.mem_cons.1 hm with rfl | hm
      · exact absurd rfl hp
      · exact hm

/-- An option that is entered in the ledger of the flags is applied to them. -/
theorem apply_of_enters {l l' : Ledger} {s : Segment} {rest : List String} {c : Cursor}
    (h : Enters l s rest l') (hc : c.unread = s.value.toList ++ rest) :
    ∃ o c', OptionToken.ofArgument? s.arg = some o ∧ l.flags.apply o c = .ok (l'.flags, c') ∧
      c'.unread = rest := by
  cases h with
  | @intro o f content ho hf ht =>
    obtain ⟨c', hg, hr⟩ := Flag.give_of_takes ht hc
    refine ⟨o, c', ho, ?_, hr⟩
    rw [Ledger.flags_record content hf, apply, hf]
    simp only [hg]

end FlagList

/-- An option begins with a dash. -/
theorem OptionToken.beginsWith_of_ofArgument? {arg : String} {o : OptionToken}
    (h : ofArgument? arg = some o) : Text.beginsWith "-" arg = true := by
  unfold ofArgument? at h
  rw [Text.beginsWith]
  split at h
  · rename_i hc
    rw [hc]
    rfl
  · cases h
  · rename_i hc
    rw [hc]
    rfl
  · cases h

/-! ## 3. The options of the tool -/

namespace Globals

/-- The reading of options passes over no trigger of completion. -/
theorem trigger_mem_of_read {fs gs : FlagList} {c c' : Cursor} (h : read fs c = (gs, .reached c'))
    (hm : Completion.trigger ∈ c.unread) : Completion.trigger ∈ c'.unread := by
  fun_induction read fs c with
  | case1 fs c behind hn =>
    rw [Cursor.unread_of_next_none hn] at hm
    exact absurd hm List.not_mem_nil
  | case2 fs c behind hn =>
    cases h
    rw [Cursor.back_of_next hn]
    exact hm
  | case3 => cases h
  | case4 fs c arg behind hn _ _ _ =>
    cases h
    rw [Cursor.back_of_next hn]
    exact hm
  | case5 => cases h
  | case6 fs c arg behind hn harg hhint o ho gs' c'' ha ih =>
    refine ih h (FlagList.trigger_mem_of_apply ha ?_ ?_)
    · exact fun hp => hhint ⟨hp, OptionToken.beginsWith_of_ofArgument? ho⟩
    · rw [Cursor.unread_of_next hn] at hm
      exact (List.mem_cons.1 hm).resolve_left fun e => harg e.symm

/-- The reading of options ends at an argument that is none, or at the trigger of completion. -/
theorem noOption_of_read {fs gs : FlagList} {c c' behind : Cursor} {arg : String}
    (h : read fs c = (gs, .reached c')) (hn : c'.next = (some arg, behind)) :
    arg = Completion.trigger ∨ OptionToken.ofArgument? arg = none := by
  fun_induction read fs c with
  | case1 fs c b hn' =>
    cases h
    have hb : c.next.2 = c' := congrArg Prod.snd hn'
    have hu := Cursor.unread_of_next hn
    rw [← hb, Cursor.unread_next, Cursor.unread_of_next_none hn'] at hu
    cases hu
  | case2 fs c b hn' =>
    cases h
    rw [Cursor.back_of_next hn', hn'] at hn
    cases hn
    exact Or.inl rfl
  | case3 => cases h
  | case4 fs c arg' b hn' _ _ ho =>
    cases h
    rw [Cursor.back_of_next hn', hn'] at hn
    cases hn
    exact Or.inr ho
  | case5 => cases h
  | case6 fs c arg' b _ _ _ o ho gs' c'' ha ih => exact ih h

/-- The options that are read are entered one after the other, up to the arguments still to come. -/
theorem entersAll_of_read {l : Ledger} {gs : FlagList} {c c' : Cursor}
    (h : read l.flags c = (gs, .reached c')) :
    ∃ ss l', EntersAll l ss c'.unread l' ∧ l'.flags = gs ∧
      c.unread = ss.flatMap Segment.arguments ++ c'.unread := by
  generalize hfs : l.flags = fs at h
  fun_induction read fs c generalizing l with
  | case1 fs c behind hn =>
    cases h
    refine ⟨[], l, .nil _ _, hfs, ?_⟩
    have hb : c.next.2 = c' := congrArg Prod.snd hn
    rw [← hb, Cursor.unread_next, Cursor.unread_of_next_none hn]
    rfl
  | case2 fs c behind hn =>
    cases h
    rw [Cursor.back_of_next hn]
    exact ⟨[], l, .nil _ _, hfs, rfl⟩
  | case3 => cases h
  | case4 fs c arg behind hn _ _ _ =>
    cases h
    rw [Cursor.back_of_next hn]
    exact ⟨[], l, .nil _ _, hfs, rfl⟩
  | case5 => cases h
  | case6 fs c arg behind hn _ _ o ho gs' c'' ha ih =>
    subst hfs
    obtain ⟨value, l', he, hl', hu⟩ := FlagList.enters_of_apply ho ha
    obtain ⟨ss, l'', hss, hl'', hu'⟩ := ih hl' h
    rw [hu'] at he
    refine ⟨⟨arg, value⟩ :: ss, l'', .cons he hss, hl'', ?_⟩
    rw [Cursor.unread_of_next hn, hu, hu']
    simp [Segment.arguments]

section

variable {fs : FlagList} {c behind : Cursor} {arg : String}

/-- Without the trigger of completion among the arguments, an option is read and reading goes on. -/
theorem read_of_apply {gs : FlagList} {c' : Cursor} {o : OptionToken}
    (hn : c.next = (some arg, behind)) (ht : Completion.trigger ∉ c.unread)
    (ho : OptionToken.ofArgument? arg = some o) (ha : fs.apply o behind = .ok (gs, c')) :
    read fs c = read gs c' := by
  obtain ⟨harg, hpeek⟩ := Cursor.untriggered hn ht
  rw [read]
  split
  · rename_i hn'
    rw [hn] at hn'
    cases hn'
  · rename_i hn'
    rw [hn] at hn'
    cases hn'
    rw [if_neg harg, if_neg fun h => hpeek h.1, ho]
    dsimp only
    split
    · rename_i ha'
      rw [ha] at ha'
      cases ha'
    · rename_i ha'
      rw [ha] at ha'
      cases ha'
      rfl

/-- Without the trigger of completion among the arguments, an argument that is no option is reached. -/
theorem read_of_noOption (hn : c.next = (some arg, behind)) (ht : Completion.trigger ∉ c.unread)
    (ho : OptionToken.ofArgument? arg = none) : read fs c = (fs, .reached c) := by
  obtain ⟨harg, hpeek⟩ := Cursor.untriggered hn ht
  rw [read]
  split
  · rename_i hn'
    rw [hn] at hn'
    cases hn'
  · rename_i hn'
    rw [hn] at hn'
    cases hn'
    rw [if_neg harg, if_neg fun h => hpeek h.1, ho]
    simp only [Cursor.back_of_next hn]

end

/-- Options that can be entered one after the other are read, up to an argument that is none. -/
theorem read_of_entersAll {l l' : Ledger} {ss : List Segment} {arg : String} {rest : List String}
    (h : EntersAll l ss (arg :: rest) l') (ho : OptionToken.ofArgument? arg = none) {c : Cursor}
    (hc : c.unread = ss.flatMap Segment.arguments ++ arg :: rest)
    (ht : Completion.trigger ∉ c.unread) :
    ∃ c', read l.flags c = (l'.flags, .reached c') ∧ c'.unread = arg :: rest := by
  generalize hr : arg :: rest = r at h
  induction h generalizing c with
  | nil =>
    subst hr
    obtain ⟨behind, hn, _⟩ := Cursor.next_of_unread hc
    exact ⟨c, read_of_noOption hn ht ho, hc⟩
  | @cons l l₁ l₂ s ss r hs _ ih =>
    subst hr
    have hc' : c.unread = s.arg ::
        (s.value.toList ++ (ss.flatMap Segment.arguments ++ arg :: rest)) := by
      rw [hc]
      simp [Segment.arguments]
    obtain ⟨behind, hn, hb⟩ := Cursor.next_of_unread hc'
    obtain ⟨o, c₁, ho₁, ha, hu⟩ := FlagList.apply_of_enters hs hb
    have hsuffix : c₁.unread <:+ c.unread := ⟨s.arg :: s.value.toList, by rw [hu, hc', List.cons_append]⟩
    have ht₁ := Cursor.untriggered_of_suffix hsuffix ht
    obtain ⟨c', hread, hc'⟩ := ih hu ht₁ rfl
    exact ⟨c', (read_of_apply hn ht ho₁ ha).trans hread, hc'⟩

end Globals

/-! ## 4. The way down -/

namespace Descent

/-- **What the loop reads to the end, the grammar walks**: nothing is skipped, nothing read twice. -/
theorem walks_of_walk {w : Walked} {d : Descent} {c : Cursor}
    (h : walk w.descent c = (d, .complete)) :
    ∃ parts w', Walks w parts w' ∧ w'.descent = d ∧ c.unread = parts.flatMap Part.arguments ∧
      Completion.trigger ∉ c.unread := by
  generalize hd : w.descent = d₀ at h
  fun_induction walk d₀ c generalizing w with
  | case1 d₀ c behind hn =>
    cases h
    rw [Cursor.unread_of_next_none hn]
    exact ⟨[], w, .done w, hd, rfl, List.not_mem_nil⟩
  | case2 => cases h
  | case3 => cases h
  | case4 => cases h
  | case5 => cases h
  | case6 d₀ c arg behind hn harg hhint o ho gs c'' ha hhelp ih =>
    subst hd
    obtain ⟨value, l, he, hl, hu⟩ := FlagList.enters_of_apply ho ha
    subst hl
    obtain ⟨parts, w', hw, hw', hu', ht⟩ := ih (w := { w with ledger := l }) rfl h
    rw [hu'] at he
    refine ⟨.option ⟨arg, value⟩ :: parts, w', .option he (Bool.eq_false_iff.2 hhelp) hw, hw', ?_, ?_⟩
    · rw [Cursor.unread_of_next hn, hu, hu']
      simp [Part.arguments, Segment.arguments]
    · rw [Cursor.unread_of_next hn]
      rintro (_ | ⟨_, hm⟩)
      · exact harg rfl
      · refine ht (FlagList.trigger_mem_of_apply ha ?_ hm)
        exact fun hp => hhint ⟨hp, OptionToken.beginsWith_of_ofArgument? ho⟩
  | case7 d₀ c arg behind hn harg hhint ho hg sub hs ih =>
    subst hd
    obtain ⟨parts, w', hw, hw', hu, ht⟩ := ih (w := w.down sub) (by simp) h
    refine ⟨.subcommand arg :: parts, w', .subcommand ho hg hs hw, hw', ?_, ?_⟩
    · rw [Cursor.unread_of_next hn, hu]
      simp [Part.arguments]
    · rw [Cursor.unread_of_next hn]
      exact List.not_mem_cons_of_ne_of_not_mem (fun e => harg e.symm) ht
  | case8 => cases h
  | case9 d₀ c arg behind hn harg hhint ho hg ih =>
    subst hd
    obtain ⟨parts, w', hw, hw', hu, ht⟩ :=
      ih (w := { w with args := w.args ++ [arg] }) rfl h
    refine ⟨.argument arg :: parts, w', .argument ho (Bool.eq_false_iff.2 hg) hw, hw', ?_, ?_⟩
    · rw [Cursor.unread_of_next hn, hu]
      simp [Part.arguments]
    · rw [Cursor.unread_of_next hn]
      exact List.not_mem_cons_of_ne_of_not_mem (fun e => harg e.symm) ht

section

variable {d : Descent} {c behind : Cursor} {arg : String}

/-- At the end of the arguments everything is read. -/
theorem walk_of_unread_nil (h : c.unread = []) : walk d c = (d, .complete) := by
  obtain ⟨behind, hn⟩ := Cursor.next_of_unread_nil h
  rw [walk]
  split
  · rfl
  · rename_i hn'
    rw [hn] at hn'
    cases hn'

/-- Without the trigger of completion among the arguments, an option is read and the walk goes on. -/
theorem walk_of_apply {fs : FlagList} {c' : Cursor} {o : OptionToken}
    (hn : c.next = (some arg, behind)) (ht : Completion.trigger ∉ c.unread)
    (ho : OptionToken.ofArgument? arg = some o) (ha : d.flags.apply o behind = .ok (fs, c'))
    (hh : fs.isSet "help" = false) : walk d c = walk { d with flags := fs } c' := by
  obtain ⟨harg, hpeek⟩ := Cursor.untriggered hn ht
  rw [walk]
  split
  · rename_i hn'
    rw [hn] at hn'
    cases hn'
  · rename_i hn'
    rw [hn] at hn'
    cases hn'
    rw [if_neg harg, if_neg fun h => hpeek h.1, ho]
    dsimp only
    split
    · rename_i ha'
      rw [ha] at ha'
      cases ha'
    · rename_i ha'
      rw [ha] at ha'
      cases ha'
      rw [hh]
      rfl

/-- Without the trigger of completion among the arguments, any other argument is the name of a
    subcommand or an argument of the command. -/
theorem walk_of_noOption (hn : c.next = (some arg, behind)) (ht : Completion.trigger ∉ c.unread)
    (ho : OptionToken.ofArgument? arg = none) :
    walk d c = if d.command.isGroup then
        match Command.find? d.command.subcommands arg with
        | some sub => walk (d.down sub) behind
        | none => (d, .failed (.unknownSubcommand arg))
      else walk { d with args := d.args ++ [arg] } behind := by
  obtain ⟨harg, hpeek⟩ := Cursor.untriggered hn ht
  conv => lhs; rw [walk]
  split
  · rename_i hn'
    rw [hn] at hn'
    cases hn'
  · rename_i hn'
    rw [hn] at hn'
    cases hn'
    refine ((if_neg harg).trans (if_neg fun h => hpeek h.1)).trans ?_
    generalize OptionToken.ofArgument? arg = o at ho
    subst ho
    rfl

end

/-- **What the grammar walks, the loop reads to the end.** -/
theorem walk_of_walks {w w' : Walked} {parts : List Part} (h : Walks w parts w') {c : Cursor}
    (hc : c.unread = parts.flatMap Part.arguments) (ht : Completion.trigger ∉ c.unread) :
    walk w.descent c = (w'.descent, .complete) := by
  induction h generalizing c with
  | done => exact walk_of_unread_nil hc
  | @option w w' l s parts hs hh _ ih =>
    have hc' : c.unread = s.arg :: (s.value.toList ++ parts.flatMap Part.arguments) := by
      rw [hc]
      simp [Part.arguments, Segment.arguments]
    obtain ⟨behind, hn, hb⟩ := Cursor.next_of_unread hc'
    obtain ⟨o, c₁, ho, ha, hu⟩ := FlagList.apply_of_enters hs hb
    have hsuffix : c₁.unread <:+ c.unread := ⟨s.arg :: s.value.toList, by rw [hu, hc', List.cons_append]⟩
    have ht₁ := Cursor.untriggered_of_suffix hsuffix ht
    exact (walk_of_apply hn ht ho ha hh).trans (ih hu ht₁)
  | @subcommand w w' sub name parts ho hg hs _ ih =>
    obtain ⟨behind, hn, hb⟩ := Cursor.next_of_unread hc
    have ht₁ := Cursor.untriggered_of_suffix (Cursor.suffix_of_next hn) ht
    have hg' : w.descent.command.isGroup = true := hg
    have hs' : Command.find? w.descent.command.subcommands name = some sub := hs
    rw [walk_of_noOption hn ht ho, if_pos hg', hs']
    show walk (w.descent.down sub) behind = _
    rw [← Walked.descent_down]
    exact ih hb ht₁
  | @argument w w' text parts ho hg _ ih =>
    obtain ⟨behind, hn, hb⟩ := Cursor.next_of_unread hc
    have ht₁ := Cursor.untriggered_of_suffix (Cursor.suffix_of_next hn) ht
    have hg' : ¬ w.descent.command.isGroup = true := by
      rw [Bool.not_eq_true]
      exact hg
    rw [walk_of_noOption hn ht ho, if_neg hg']
    exact ih hb ht₁

end Descent

end BrokerCli
