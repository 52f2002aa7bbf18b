import BrokerCli.Proofs.Paths

/-!
# The settings stand first

The text of a configuration begins with its settings, and settings hold no numbers. So they are read as
they were written, whatever follows: also where a number of the unknown parts is not read as it was kept,
which for numbers that are no integers nothing excludes; and also where the text was cut short.

* `Build.Begun` -- the outermost container is an object, and what its first member is has been read. No
  token can change that (`Build.begun_of_feed?`), and so no text can (`Reader.begun_of_run`);
* `Reader.build_of_run_done` -- behind a document that is complete no text changes it, either; so what has
  not come to the end of its first line is no document yet (`Reader.finish?_eq_none_of_run`);
* `Reader.run_heading` -- the builder has begun with the settings behind the first lines of a text;
* `Configuration.settings_of_parse_start` -- if the text of a configuration, or what it starts with, can be
  read, the settings are those of the configuration; and the same of what a write to a file has left
  (`FileSystem.settings_of_left`).
-/

namespace BrokerCli

namespace Document

/-! ## 1. The first member -/

/-- An object that has its first member. -/
def Frame.Begins (m : Option String × Document) : Frame → Prop
  | .items _ => False
  | .member done _ => done.getLast? = some m

/-- The outermost of the open containers is an object that has its first member. -/
def Based (m : Option String × Document) : List Frame → Prop
  | [] => False
  | [frame] => frame.Begins m
  | _ :: frame :: stack => Based m (frame :: stack)

/-- The outermost container is an object that has its first member. An object that has no member yet is
    not the outermost one. -/
def Build.Begun (m : Option String × Document) : Build → Prop
  | .value stack => Based m stack
  | .item stack => Based m stack
  | .key true _ stack => Based m stack
  | .key false done stack => Based m (.member done none :: stack)
  | .colon done k stack => Based m (.member done k :: stack)
  | .after d [] => ∃ ms, d = .object (m :: ms)
  | .after _ (frame :: stack) => Based m (frame :: stack)

variable {m : Option String × Document} {stack : List Frame}

/-- Containers are opened above the outermost one. -/
theorem Based.cons (h : Based m stack) (frame : Frame) : Based m (frame :: stack) := by
  cases stack with
  | nil => exact h.elim
  | cons => exact h

/-- What else is said of the innermost object does not matter. -/
theorem Based.member {done : List (Option String × Document)} {key key' : Option String}
    (h : Based m (.member done key :: stack)) (more : List (Option String × Document)) :
    Based m (.member (more ++ done) key' :: stack) := by
  cases stack with
  | nil =>
    have hdone : done.getLast? = some m := h
    show (more ++ done).getLast? = some m
    rw [List.getLast?_append, hdone]
    rfl
  | cons => exact h

namespace Build

/-- A value is complete above the outermost container. -/
theorem begun_after (h : Based m stack) (d : Document) : (after d stack).Begun m := by
  cases stack with
  | nil => exact h.elim
  | cons => exact h

theorem begun_of_begin? {t : Token} {b : Build} (h : Based m stack) (hb : begin? stack t = some b) :
    b.Begun m := by
  cases t <;> cases hb
  · exact h
  · exact h
  · exact begun_after h _
  · exact begun_after h _

/-- An array is closed above the outermost container. -/
theorem based_of_items {done : List Document} (h : Based m (.items done :: stack)) : Based m stack := by
  cases stack with
  | nil => exact h.elim
  | cons => exact h

/-- **No token changes the first member.** -/
theorem begun_of_feed? {b b' : Build} {t : Token} (h : b.Begun m) (hf : b.feed? t = some b') :
    b'.Begun m := by
  unfold feed? at hf
  split at hf
  · exact begun_of_begin? h hf
  · cases hf
    exact begun_after h _
  · exact begun_of_begin? (Based.cons h _) hf
  · cases hf
    exact begun_after h _
  · cases hf
    rename_i isFirst done _ _
    cases isFirst with
    | true => exact Based.cons h _
    | false => exact Based.member h []
  · cases hf
    exact h
  · cases hf
    exact (based_of_items h).cons _
  · cases hf
    exact begun_after (based_of_items h) _
  · cases hf
    rename_i d done k stack
    exact Based.member h [(k, d)]
  · cases hf
    rename_i d done k stack
    cases stack with
    | nil =>
      have hdone : done.getLast? = some m := h
      obtain ⟨firsts, hsplit⟩ := List.getLast?_eq_some_iff.1 hdone
      refine ⟨(firsts.reverse ++ [(k, d)]), ?_⟩
      rw [hsplit]
      simp
    | cons => exact h
  · cases hf

/-- Behind a document that is complete there is no token. -/
theorem feed?_after_nil (d : Document) (t : Token) : (after d []).feed? t = none := by
  cases t <;> rfl

/-- No token leads back to where nothing has been read. -/
theorem ne_value_of_feed? {b b' : Build} {t : Token} (h : b.feed? t = some b') : b' ≠ .value [] := by
  have hbegin {stack : List Frame} (h : begin? stack t = some b') : b' ≠ .value [] := by
    cases t <;> cases h <;> nofun
  unfold feed? at h
  split at h
  · exact hbegin h
  · cases h
    nofun
  · exact hbegin h
  all_goals
    cases h
    try nofun

/-- A word is a document on its own only where nothing has been read. -/
theorem value_of_feed?_atom {b : Build} {d d' : Document} (h : b.feed? (.atom d) = some (.after d' [])) :
    b = .value [] := by
  cases b with
  | value stack =>
    cases h
    rfl
  | item stack => cases h
  | key isFirst done stack => cases isFirst <;> cases h
  | colon done k stack => cases h
  | after d stack =>
    cases stack with
    | nil => cases h
    | cons frame stack => cases frame <;> cases h

/-- A document that is complete is an object with that first member. -/
theorem object_of_done? {b : Build} {d : Document} (h : b.Begun m) (hd : b.done? = some d) :
    ∃ ms, d = .object (m :: ms) := by
  unfold done? at hd
  split at hd
  · cases hd
    exact h
  · cases hd

end Build

namespace Reader

variable {P : Build → Prop}

/-- **What no token changes, no text changes.** -/
theorem kept_of_step? {r s : Reader} {c : Char} (hP : ∀ b b' t, P b → b.feed? t = some b' → P b')
    (h : P r.build) (hs : r.step? c = some s) : P s.build := by
  have hbetween {b : Build} (hb : P b) (hs : between? b c = some s) : P s.build := by
    unfold between? at hs
    split at hs
    · cases hs
      exact hb
    split at hs
    · cases hs
      exact hb
    split at hs
    · obtain ⟨b', hfeed, rfl⟩ := Option.map_eq_some_iff.1 hs
      exact hP _ _ _ hb hfeed
    · cases hs
      exact hb
  obtain ⟨lexeme, b⟩ := r
  unfold step? at hs
  dsimp only at h hs
  split at hs
  · exact hbetween h hs
  · split at hs
    · obtain ⟨b', hend, hs⟩ := Option.bind_eq_some_iff.1 hs
      obtain ⟨d, _, hfeed⟩ := Option.bind_eq_some_iff.1 hend
      exact hbetween (hP _ _ _ h hfeed) hs
    · cases hs
      exact h
  · split at hs
    · obtain ⟨b', hend, rfl⟩ := Option.map_eq_some_iff.1 hs
      exact hP _ _ _ h hend
    split at hs
    · cases hs
      exact h
    split at hs
    · cases hs
    · cases hs
      exact h
  · split at hs
    · cases hs
      exact h
    · obtain ⟨_, _, rfl⟩ := Option.map_eq_some_iff.1 hs
      exact h
  · obtain ⟨_, _, rfl⟩ := Option.map_eq_some_iff.1 hs
    split <;> exact h

theorem kept_of_run {r s : Reader} {cs : List Char} (hP : ∀ b b' t, P b → b.feed? t = some b' → P b')
    (h : P r.build) (hr : r.run cs = .ok s) : P s.build := by
  induction cs generalizing r with
  | nil =>
    cases hr
    exact h
  | cons c cs ih =>
    rw [run] at hr
    split at hr
    · rename_i r' hstep
      exact ih (kept_of_step? hP h hstep) hr
    · cases hr

theorem object_of_finish? {r : Reader} {d : Document} (h : r.build.Begun m) (hd : r.finish? = some d) :
    ∃ ms, d = .object (m :: ms) := by
  unfold finish? at hd
  split at hd
  · exact Build.object_of_done? h hd
  · obtain ⟨b, hend, hdone⟩ := Option.bind_eq_some_iff.1 hd
    obtain ⟨_, _, hfeed⟩ := Option.bind_eq_some_iff.1 hend
    exact Build.object_of_done? (Build.begun_of_feed? h hfeed) hdone
  · cases hd

/-! ## 2. Texts that are cut short -/

/-- Behind an opening bracket, a document is complete only between two tokens. -/
theorem eq_of_finish? {r : Reader} {d : Document} (h : r.build ≠ .value []) (hd : r.finish? = some d) :
    r = ⟨.between, .after d []⟩ := by
  have hdone {b : Build} (hb : b.done? = some d) : b = .after d [] := by
    unfold Build.done? at hb
    split at hb
    · cases hb
      rfl
    · cases hb
  obtain ⟨lexeme, b⟩ := r
  unfold finish? at hd
  split at hd
  · rename_i hlexeme
    cases hlexeme
    rw [← hdone hd]
  · obtain ⟨b', hend, hb'⟩ := Option.bind_eq_some_iff.1 hd
    obtain ⟨_, _, hfeed⟩ := Option.bind_eq_some_iff.1 hend
    rw [hdone hb'] at hfeed
    exact absurd (Build.value_of_feed?_atom hfeed) h
  · cases hd

/-- **Where a document is complete, nothing else is begun**: a text that goes on from there to where none is
    complete is no document there. -/
theorem finish?_eq_none_of_run {r s : Reader} {cs : List Char} (h : r.build ≠ .value [])
    (hr : r.run cs = .ok s) (hs : s.build.done? = none) : r.finish? = none := by
  refine Option.eq_none_iff_forall_ne_some.2 fun d hd => ?_
  cases eq_of_finish? h hd
  -- behind a document that is complete there is no token, and so no text changes it
  have hsame : s.build = .after d [] := kept_of_run (P := (· = .after d []))
    (fun b b' t hb hf => by rw [hb, Build.feed?_after_nil] at hf; cases hf) rfl hr
  rw [hsame] at hs
  cases hs

/-! ## 3. The text of a configuration -/

/-- **Behind its heading a reader has begun with the first member**: what is written in front of the second
    member of an object is read up to there, if it holds no numbers. -/
theorem run_heading (l : Json.Layout) (key : String) {j : Json} (hj : j.Integral) (rest : List Char)
    (next : String × Json) (ms : List (String × Json)) :
    ∃ s behind, (Json.object ((key, j) :: next :: ms)).chars l 0 ++ rest = '\x7b' :: (s ++ behind) ∧
      (⟨.between, .key true [] []⟩ : Reader).run s =
        .ok ⟨.between, .key false [(some key, ofJson j)] []⟩ := by
  obtain ⟨r, hr, hs⟩ := run_oneMemberChars l 1 (key, j) true [] [] hj
  refine ⟨l.line 1 ++ Json.oneMemberChars l 1 (key, j) ++ [','],
    l.line 1 ++ Json.oneMemberChars l 1 next ++ Json.moreMemberChars l 0 ms ++ rest, ?_, ?_⟩
  · simp [Json.chars, Json.memberChars, Json.moreMemberChars]
  · rw [List.append_assoc, run_blank (l.line_blank _), run_append hr, hs.run_cons rfl,
      run_token (t := .comma) rfl rfl (by decide) rfl]
    rfl

end Reader

end Document

/-- Of members under one key, the first is the one that is meant, if one is meant at all. -/
theorem Document.eq_of_single? {key : String} {d : Document} {ms : List (String × Document)}
    {found : Option Document} (h : single? [key] ((key, d) :: ms) = some found) : found = some d := by
  have hkey : [key].contains key = true := by simp
  unfold single? at h
  rw [List.filter_cons, if_pos hkey] at h
  split at h
  · rename_i hnone
    exact absurd hnone (List.cons_ne_nil _ _)
  · rename_i hone
    cases (List.cons.inj hone).1
    exact (Option.some.inj h).symm
  · cases h

namespace Configuration

open Document

/-- What an object with settings in front is read as has these settings. -/
theorem settings_of_ofDocument? {c : Configuration} {s : Settings} {ms : List (Option String × Document)}
    (h : ofDocument? (.object ((some "settings", ofJson s.toJson) :: ms)) = some c) :
    c.settings = s := by
  obtain ⟨named, hnamed, h⟩ := Option.bind_eq_some_iff.1 h
  obtain ⟨others, _, rfl⟩ := Option.map_eq_some_iff.1 hnamed
  obtain ⟨found, hfound, h⟩ := Option.bind_eq_some_iff.1 h
  cases eq_of_single? hfound
  obtain ⟨s', hs, h⟩ := Option.bind_eq_some_iff.1 h
  rw [Settings.ofDocument?_toJson] at hs
  cases hs
  obtain ⟨servers, _, h⟩ := Option.bind_eq_some_iff.1 h
  cases servers
  all_goals
    obtain ⟨_, _, h⟩ := Option.bind_eq_some_iff.1 h
    obtain ⟨_, _, h⟩ := Option.bind_eq_some_iff.1 h
    cases h
    rfl

theorem exists_of_parse {c : Configuration} {text : String} (h : parse text = .ok c) :
    ∃ r d, Reader.start.run text.toList = .ok r ∧ r.finish? = some d ∧ ofDocument? d = some c := by
  unfold parse Document.parse at h
  dsimp only at h
  cases hr : Reader.start.run text.toList with
  | error rest =>
    rw [hr] at h
    cases h
  | ok r =>
    rw [hr] at h
    dsimp only at h
    cases hd : r.finish? with
    | none =>
      rw [hd] at h
      cases h
    | some d =>
      rw [hd] at h
      dsimp only at h
      split at h
      · rename_i hc
        cases h
        exact ⟨r, d, rfl, hd, hc⟩
      · cases h

/-- **The settings of a written configuration are read as they were written**, if the text can be read at
    all, and also if a text can be read that it starts with. -/
theorem settings_of_parse_start {c c' : Configuration} {text : String}
    (hstart : text.toList <+: c.text.toList) (h : parse text = .ok c') : c'.settings = c.settings := by
  have hnumbers : c.settings.toJson.Integral := fun n hn => absurd hn List.not_mem_nil
  obtain ⟨s, behind, hsplit, hrun⟩ := Reader.run_heading .pretty "settings" hnumbers ['\n']
    ("brokers", c.servers.toJson) c.extra.entries
  have htext : c.text.toList = '\x7b' :: (s ++ behind) := by
    rw [← hsplit, Configuration.text, Json.pretty, Json.text, String.toList_append, String.toList_ofList]
    rfl
  have hbegun : Build.Begun (some "settings", ofJson c.settings.toJson)
      (.key false [(some "settings", ofJson c.settings.toJson)] []) := by
    show [_].getLast? = _
    rfl
  obtain ⟨r, d, hr, hd, hc⟩ := exists_of_parse h
  rw [htext] at hstart
  cases hcs : text.toList with
  | nil =>
    rw [hcs] at hr
    cases hr
    cases hd
  | cons first rest =>
    rw [hcs] at hstart hr
    obtain ⟨rfl, missing, hmissing⟩ := List.cons_prefix_cons.1 hstart
    rw [Reader.start, Reader.run_token (t := .openObject) rfl rfl (by decide) rfl] at hr
    rcases List.append_eq_append_iff.1 hmissing with ⟨more, hs, _⟩ | ⟨more, hrest, _⟩
    · -- what ends within the settings is no document, since the settings go on
      rw [hs, Reader.run_append hr] at hrun
      have hopen : r.build ≠ .value [] := Reader.kept_of_run (P := (· ≠ .value []))
        (fun _ _ _ _ => Build.ne_value_of_feed?) (fun h => Build.noConfusion h) hr
      rw [Reader.finish?_eq_none_of_run hopen hrun rfl] at hd
      cases hd
    · rw [hrest, Reader.run_append hrun] at hr
      obtain ⟨ms, rfl⟩ := Reader.object_of_finish?
        (Reader.kept_of_run (fun _ _ _ => Build.begun_of_feed?) hbegun hr) hd
      exact settings_of_ofDocument? hc

end Configuration

/-- The first bytes of a text, if they are a text at all, are its first characters. -/
theorem Text.toList_prefix_of_extract {s t : String} {n : Nat}
    (h : String.fromUTF8? (t.toUTF8.extract 0 n) = some s) : s.toList <+: t.toList := by
  have hbytes : t.toUTF8.extract 0 n = s.toUTF8 := by
    unfold String.fromUTF8? at h
    split at h
    · cases h
      rfl
    · cases h
  rcases Nat.le_total t.toUTF8.size n with hn | hn
  · rw [← Nat.max_eq_left hn, ByteArray.extract_zero_max_size] at hbytes
    obtain rfl := String.toByteArray_inj.1 hbytes
    exact List.prefix_refl _
  · -- the bytes are valid on their own, so they end between two characters
    have hvalid : String.Pos.Raw.IsValid t ⟨n⟩ :=
      String.Pos.Raw.isValid_iff_isValidUTF8_extract_zero.2 ⟨hn, hbytes ▸ s.isValidUTF8⟩
    obtain ⟨s₁, s₂, rfl, hend⟩ := String.Pos.Raw.isValid_iff_exists_append.1 hvalid
    cases hend
    have hleft : (s₁ ++ s₂).toUTF8.extract 0 s₁.utf8ByteSize = s₁.toUTF8 := by
      rw [String.toUTF8_eq_toByteArray, String.toByteArray_append]
      exact ByteArray.extract_append_eq_left rfl
    rw [String.toByteArray_inj.1 (hbytes.symm.trans hleft), String.toList_append]
    exact List.prefix_append _ _

/-- **What a write of a configuration to a file has left has its settings**, if it is a configuration at all
    and not blank. -/
theorem FileSystem.settings_of_left {fs before : FileSystem} {l : Location} {mode : Nat} {left : ByteArray}
    {c c' : Configuration} (hl : fs.node? l = some (.file mode left))
    (hleft : before.MayLeave c.text.toUTF8 left) (h : fs.held? l = some c') :
    c' = {} ∨ c'.settings = c.settings := by
  obtain ⟨mode', content, text, hnode, hutf, hread⟩ := held?_eq_some_iff.1 h
  cases hl.symm.trans hnode
  have hstart : text.toList <+: c.text.toList := by
    rcases hleft with rfl | ⟨m, _, rfl⟩
    · have htext : String.fromUTF8? c.text.toUTF8 = some c.text := dif_pos c.text.isValidUTF8
      cases htext.symm.trans hutf
      exact List.prefix_refl _
    · exact Text.toList_prefix_of_extract hutf
  unfold Store.readConfiguration at hread
  split at hread
  · cases hread
    exact .inl rfl
  · split at hread
    · rename_i hparse
      cases hread
      exact .inr (Configuration.settings_of_parse_start hstart hparse)
    · cases hread

end BrokerCli
