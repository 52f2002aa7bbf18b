import BrokerCli.Proofs.Forward

/-!
# Which clients a command works with

A command may list the types of clients that it works with. The type of a client is the kind of its server,
and for a broker the kind with the interface. The gate turns away what is not listed:

* `Connect.Lists`, `Connect.Admits` -- a list has a type, whatever the case of its ASCII letters. It is all
  that the gate asks of a list (`Connect.gate_eq_none_iff` and the lemmas beside it), so that the case of its
  entries does not matter (`Connect.lists_congr`);
* `Client.properType` -- the type of a client where a broker counts as one in whatever letters its kind is
  written. The gate takes a broker for one only if the kind is in lower case;
* `Server.Plain` -- the kind of the server is none of a broker's, or is written in lower case. For such
  servers the two types are the same (`Client.gateType_of_plain`);
* `Connect.client_by_type` -- what becomes of a client that could be made.

`Connect.capital_broker` shows that a broker in capitals is turned away.
-/

namespace BrokerCli

/-! ## 1. Types -/

/-- An empty text is empty in any letters. -/
theorem Text.isEmpty_asciiLower (s : String) : (asciiLower s).isEmpty = s.isEmpty := by
  rw [Bool.eq_iff_iff, String.isEmpty_iff, String.isEmpty_iff, ← String.toList_eq_nil_iff,
    ← String.toList_eq_nil_iff, asciiLower, String.toList_ofList, List.map_eq_nil_iff]

namespace Server

variable {s s' : Server}

/-- The kinds that the gate knows by name. -/
def brokerKinds : List String := ["broker", "brokerv2", "brokerld"]

theorem asciiLower_of_mem_brokerKinds : ∀ kind ∈ brokerKinds, Text.asciiLower kind = kind := by decide +kernel

/-- If the kind of the server is one of a broker, then it is written in lower case. -/
def Plain (s : Server) : Prop := Text.asciiLower s.kind ∈ brokerKinds → Text.asciiLower s.kind = s.kind

instance (s : Server) : Decidable s.Plain := inferInstanceAs (Decidable (_ → _))

theorem asciiLower_kind_congr (h : Text.asciiLower s.serverType = Text.asciiLower s'.serverType) :
    Text.asciiLower s.kind = Text.asciiLower s'.kind := by
  have hempty : s.serverType.isEmpty = s'.serverType.isEmpty := by
    rw [← Text.isEmpty_asciiLower, h, Text.isEmpty_asciiLower]
  unfold kind
  rw [hempty]
  split
  · rfl
  · exact h

end Server

namespace Client

variable {c c' : Client}

/-- The type of a client: for a broker, in whatever letters its kind is written, the one with its
    interface; otherwise the kind of its server. -/
def properType (c : Client) : String :=
  if Text.asciiLower c.server.kind = "broker" then "broker" ++ c.ngsiType.name else c.server.kind

/-- **The gate goes by the type of the client, if the kind is plain.** -/
theorem gateType_of_plain (h : c.server.Plain) : c.gateType = c.properType := by
  unfold gateType properType
  by_cases hlow : Text.asciiLower c.server.kind = "broker"
  · have hkind : c.server.kind = "broker" := (h (hlow ▸ by decide)).symm.trans hlow
    rw [if_pos hlow, if_pos hkind]
  · have hkind : c.server.kind ≠ "broker" := by
      intro hkind
      rw [hkind] at hlow
      exact hlow (by decide +kernel)
    rw [if_neg hlow, if_neg hkind]

/-- A type that names a broker in lower case is written so, if the kind is plain. -/
theorem asciiLower_properType_iff (h : c.server.Plain) {type : String} (htype : type ∈ Server.brokerKinds) :
    Text.asciiLower c.properType = type ↔ c.properType = type := by
  constructor
  · unfold properType
    split
    · have hboth : ∀ n : NgsiType, Text.asciiLower ("broker" ++ n.name) = "broker" ++ n.name := by
        rintro (_ | _) <;> decide +kernel
      rw [hboth]
      exact id
    · rintro rfl
      exact (h htype).symm
  · rintro rfl
    exact Server.asciiLower_of_mem_brokerKinds _ htype

/-- A kind that is not plain is passed on as it is, and is no type that the gate knows by name. -/
theorem gateType_of_not_plain (h : ¬ c.server.Plain) :
    c.gateType = c.server.kind ∧ c.gateType ∉ Server.brokerKinds := by
  obtain ⟨hmem, hne⟩ := Classical.not_imp.1 h
  have hkind : c.server.kind ∉ Server.brokerKinds :=
    fun hk => hne (Server.asciiLower_of_mem_brokerKinds _ hk)
  have htype : c.gateType = c.server.kind := if_neg fun hk => hkind (by rw [hk]; exact List.mem_cons_self)
  exact ⟨htype, htype ▸ hkind⟩

/-- The case of the letters of a kind is no part of the type. -/
theorem asciiLower_properType_congr
    (hkind : Text.asciiLower c.server.kind = Text.asciiLower c'.server.kind)
    (hngsi : c.ngsiType = c'.ngsiType) :
    Text.asciiLower c.properType = Text.asciiLower c'.properType := by
  unfold properType
  rw [hkind, hngsi]
  split
  · rfl
  · exact hkind

/-- The interface of a client is the newer one if its server says so, in any letters. -/
theorem ngsiType_of_make {servers : ServerTable} {options : ClientOptions} {r : ClientRequest}
    (h : ClientFactory.registry.make servers options r = .ok c) :
    c.ngsiType = .ld ↔ Text.lower c.server.ngsiType ∈ ["ld", "ngsi-ld"] := by
  have hngsi : c.ngsiType = .ofRecord c.server.ngsiType := congrArg Client.ngsiType (eq_of_make h).2
  have hswap : Text.lower c.server.ngsiType ∈ ["ld", "ngsi-ld"] ↔
      Text.lower c.server.ngsiType ∈ ["ngsi-ld", "ld"] := by
    rw [List.mem_pair, List.mem_pair, or_comm]
  rw [hngsi, hswap, ← List.contains_iff_mem, NgsiType.ofRecord]
  split
  · rename_i hld
    exact iff_of_true rfl hld
  · rename_i hld
    exact iff_of_false nofun hld

end Client

/-! ## 2. The verdict -/

namespace Connect

variable {serverList serverList' : Option (List String)} {type type' : String} {c : Client}

/-- The list has a type, whatever the case of its ASCII letters. -/
def Lists (serverList : Option (List String)) (type : String) : Prop :=
  ∃ kinds, serverList = some kinds ∧ ∃ kind ∈ kinds, Text.asciiLower kind = Text.asciiLower type

/-- There is no list, or it has the type. -/
def Admits (serverList : Option (List String)) (type : String) : Prop :=
  serverList = none ∨ Lists serverList type

/-- The case of the letters does not matter, neither in the list nor in the type. -/
theorem lists_congr (hlist : serverList.map (·.map Text.asciiLower) = serverList'.map (·.map Text.asciiLower))
    (htype : Text.asciiLower type = Text.asciiLower type') : Lists serverList type ↔ Lists serverList' type' := by
  have hlow (list : Option (List String)) (t : String) : Lists list t ↔
      ∃ lows, list.map (·.map Text.asciiLower) = some lows ∧ Text.asciiLower t ∈ lows := by
    cases list with
    | none => simp [Lists]
    | some kinds => simp [Lists]
  rw [hlow, hlow, hlist, htype]

theorem admits_congr (hlist : serverList.map (·.map Text.asciiLower) = serverList'.map (·.map Text.asciiLower))
    (htype : Text.asciiLower type = Text.asciiLower type') : Admits serverList type ↔ Admits serverList' type' := by
  refine or_congr ?_ (lists_congr hlist htype)
  rw [← Option.map_eq_none_iff, hlist, Option.map_eq_none_iff]

theorem lists_some (kinds : List String) : Lists (some kinds) type ↔ lists kinds type = true := by
  simp [Lists, lists]

instance (serverList : Option (List String)) (type : String) : Decidable (Lists serverList type) :=
  match serverList with
  | none => isFalse nofun
  | some kinds => decidable_of_iff _ (lists_some kinds).symm

theorem gate_eq_none_iff : gate serverList c = none ↔ Admits serverList c.gateType := by
  cases serverList with
  | none => exact iff_of_true rfl (.inl rfl)
  | some kinds =>
    rw [Admits, lists_some, or_iff_right nofun, gate]
    by_cases h : lists kinds c.gateType = true
    · rw [if_pos h]
      exact iff_of_true rfl h
    · rw [if_neg h]
      refine iff_of_false ?_ h
      split
      · exact nofun
      · split <;> exact nofun

/-- What is not admitted is turned away for one of three reasons: the other interface is listed that the
    client has not, one way or the other, or the kind of the server is not listed. -/
theorem gate_of_not_admitted (h : ¬ Admits serverList c.gateType) : gate serverList c =
    if c.gateType = "brokerld" ∧ Lists serverList "brokerv2" then some .onlyV2
    else if c.gateType = "brokerv2" ∧ Lists serverList "brokerld" then some .onlyLd
    else some (.notSupported c.server.kind) := by
  cases serverList with
  | none => exact absurd (.inl rfl) h
  | some kinds =>
    rw [Admits, lists_some, or_iff_right nofun] at h
    simp only [gate, if_neg h, lists_some]

theorem gate_eq_onlyV2_iff : gate serverList c = some .onlyV2 ↔
    ¬ Admits serverList c.gateType ∧ c.gateType = "brokerld" ∧ Lists serverList "brokerv2" := by
  by_cases h : Admits serverList c.gateType
  · rw [gate_eq_none_iff.2 h]
    exact iff_of_false nofun fun h' => h'.1 h
  · rw [and_iff_right h, gate_of_not_admitted h]
    split
    · rename_i hreason
      exact iff_of_true rfl hreason
    · rename_i hreason
      refine iff_of_false ?_ hreason
      split <;> exact nofun

theorem gate_eq_onlyLd_iff : gate serverList c = some .onlyLd ↔
    ¬ Admits serverList c.gateType ∧ c.gateType = "brokerv2" ∧ Lists serverList "brokerld" := by
  by_cases h : Admits serverList c.gateType
  · rw [gate_eq_none_iff.2 h]
    exact iff_of_false nofun fun h' => h'.1 h
  · rw [and_iff_right h, gate_of_not_admitted h]
    split
    · rename_i hother
      refine iff_of_false nofun fun hreason => ?_
      exact absurd (hother.1.symm.trans hreason.1) (by decide)
    · split
      · rename_i hreason
        exact iff_of_true rfl hreason
      · rename_i hreason
        exact iff_of_false nofun hreason

/-! ## 3. Clients -/

variable {p : Execution} {r : ClientRequest}

/-- A client that could be made is handed over, unless the gate says otherwise. -/
theorem outcome_of_make
    (h : p.session.factory.make p.session.servers p.session.clientOptions r = .ok c) :
    ((client serverList r).perform p).1 = match gate serverList c with
      | none => .ok c
      | some e => .error e := by
  unfold client
  rw [Run.perform_bind, Run.perform_lift, Effect.perform_session]
  simp only [h, Run.perform_bind, Run.perform_lift]
  cases gate serverList c <;> rfl

theorem outcome_eq_ok_iff
    (h : p.session.factory.make p.session.servers p.session.clientOptions r = .ok c) :
    ((client serverList r).perform p).1 = .ok c ↔ gate serverList c = none := by
  rw [outcome_of_make h]
  cases gate serverList c <;> simp

theorem outcome_eq_error_iff {e : HandOverError}
    (h : p.session.factory.make p.session.servers p.session.clientOptions r = .ok c) :
    ((client serverList r).perform p).1 = .error e ↔ gate serverList c = some e := by
  rw [outcome_of_make h]
  cases gate serverList c <;> simp

/-- **The outcome hangs on the type alone**, and of the type on its letters in lower case, but for the two
    types that the gate knows by name. -/
theorem outcome_congr {p' : Execution} {r' : ClientRequest} {c' : Client}
    (h : p.session.factory.make p.session.servers p.session.clientOptions r = .ok c)
    (h' : p'.session.factory.make p'.session.servers p'.session.clientOptions r' = .ok c')
    (hlist : serverList.map (·.map Text.asciiLower) = serverList'.map (·.map Text.asciiLower))
    (htype : Text.asciiLower c.gateType = Text.asciiLower c'.gateType)
    (hnamed : ∀ type ∈ Server.brokerKinds, c.gateType = type ↔ c'.gateType = type) :
    let outcome := ((client serverList r).perform p).1
    let outcome' := ((client serverList' r').perform p').1
    (outcome = .ok c ↔ outcome' = .ok c') ∧ (outcome = .error .onlyV2 ↔ outcome' = .error .onlyV2) ∧
      (outcome = .error .onlyLd ↔ outcome' = .error .onlyLd) := by
  have hlists (type : String) : Lists serverList type ↔ Lists serverList' type := lists_congr hlist rfl
  dsimp only
  rw [outcome_eq_ok_iff h, outcome_eq_ok_iff h', outcome_eq_error_iff h, outcome_eq_error_iff h',
    outcome_eq_error_iff h, outcome_eq_error_iff h', gate_eq_none_iff, gate_eq_none_iff,
    gate_eq_onlyV2_iff, gate_eq_onlyV2_iff, gate_eq_onlyLd_iff, gate_eq_onlyLd_iff,
    admits_congr hlist htype, hnamed "brokerld" (by decide), hnamed "brokerv2" (by decide),
    hlists "brokerv2", hlists "brokerld"]
  exact ⟨.rfl, .rfl, .rfl⟩

/-- **What becomes of a client that could be made**, for every session, host and list.

    It is handed over just when there is no list, or the list has its type; otherwise it is turned away for
    one of three reasons. If the kind of its server is plain, the type is the one where a broker counts as
    one in any letters: a client with the newer interface is told of the older one just when the list has
    that, and the other way round. A kind that is not plain is compared with the list as it stands, and the
    reason names it.

    The case of the letters makes no difference in the list and in what the server says of its interface, and
    none in the kind of the server between plain kinds. -/
theorem client_by_type
    (hmake : p.session.factory.make p.session.servers p.session.clientOptions r = .ok c)
    (serverList : Option (List String)) :
    let outcome := ((client serverList r).perform p).1
    (outcome = .ok c ↔ Admits serverList c.gateType) ∧
    (outcome = .ok c ∨ outcome = .error .onlyV2 ∨ outcome = .error .onlyLd ∨
      outcome = .error (.notSupported c.server.kind)) ∧
    (p.session.factory = .registry →
      (c.ngsiType = .ld ↔ Text.lower c.server.ngsiType ∈ ["ld", "ngsi-ld"])) ∧
    (c.server.Plain →
      (outcome = .ok c ↔ Admits serverList c.properType) ∧
      (outcome = .error .onlyV2 ↔ ¬ Admits serverList c.properType ∧
        Text.asciiLower c.properType = "brokerld" ∧ Lists serverList "brokerv2") ∧
      (outcome = .error .onlyLd ↔ ¬ Admits serverList c.properType ∧
        Text.asciiLower c.properType = "brokerv2" ∧ Lists serverList "brokerld")) ∧
    (¬ c.server.Plain → (outcome = .ok c ↔ Admits serverList c.server.kind) ∧
      (outcome ≠ .ok c → outcome = .error (.notSupported c.server.kind))) ∧
    (∀ (p' : Execution) (r' : ClientRequest) (c' : Client) (serverList' : Option (List String)),
      p'.session.factory.make p'.session.servers p'.session.clientOptions r' = .ok c' →
      serverList.map (·.map Text.asciiLower) = serverList'.map (·.map Text.asciiLower) →
      c.ngsiType = c'.ngsiType →
      (c.server.serverType = c'.server.serverType ∨
        (Text.asciiLower c.server.serverType = Text.asciiLower c'.server.serverType ∧
          c.server.Plain ∧ c'.server.Plain)) →
      let outcome' := ((client serverList' r').perform p').1
      (outcome = .ok c ↔ outcome' = .ok c') ∧ (outcome = .error .onlyV2 ↔ outcome' = .error .onlyV2) ∧
        (outcome = .error .onlyLd ↔ outcome' = .error .onlyLd)) := by
  intro outcome
  have hok : outcome = .ok c ↔ Admits serverList c.gateType :=
    (outcome_eq_ok_iff hmake).trans gate_eq_none_iff
  have hturned (h : ¬ Admits serverList c.gateType) : outcome = .error .onlyV2 ∨
      outcome = .error .onlyLd ∨ outcome = .error (.notSupported c.server.kind) := by
    have hgate := gate_of_not_admitted h
    split at hgate
    · exact .inl ((outcome_eq_error_iff hmake).2 hgate)
    split at hgate
    · exact .inr (.inl ((outcome_eq_error_iff hmake).2 hgate))
    · exact .inr (.inr ((outcome_eq_error_iff hmake).2 hgate))
  have hv2 : outcome = .error .onlyV2 ↔
      ¬ Admits serverList c.gateType ∧ c.gateType = "brokerld" ∧ Lists serverList "brokerv2" :=
    (outcome_eq_error_iff hmake).trans gate_eq_onlyV2_iff
  have hld : outcome = .error .onlyLd ↔
      ¬ Admits serverList c.gateType ∧ c.gateType = "brokerv2" ∧ Lists serverList "brokerld" :=
    (outcome_eq_error_iff hmake).trans gate_eq_onlyLd_iff
  refine ⟨hok, ?_, fun hfactory => ?_, fun hplain => ?_, fun hplain => ?_,
    fun p' r' c' serverList' hmake' hlist hngsi hkind => ?_⟩
  · by_cases h : Admits serverList c.gateType
    · exact .inl (hok.2 h)
    · exact .inr (hturned h)
  · rw [hfactory] at hmake
    exact Client.ngsiType_of_make hmake
  · rw [Client.asciiLower_properType_iff hplain (by decide),
      Client.asciiLower_properType_iff hplain (by decide), ← Client.gateType_of_plain hplain]
    exact ⟨hok, hv2, hld⟩
  · obtain ⟨htype, hunknown⟩ := Client.gateType_of_not_plain hplain
    refine ⟨htype ▸ hok, fun hnot => ?_⟩
    rcases hturned (mt hok.2 hnot) with h | h | h
    · exact absurd ((hv2.1 h).2.1 ▸ by decide) hunknown
    · exact absurd ((hld.1 h).2.1 ▸ by decide) hunknown
    · exact h
  · rcases hkind with hkind | ⟨hkind, hplain, hplain'⟩
    · have htype : c.gateType = c'.gateType := by
        unfold Client.gateType Server.kind
        rw [hkind, hngsi]
      exact outcome_congr hmake hmake' hlist (htype ▸ rfl) fun type _ => htype ▸ .rfl
    · have htype := Client.asciiLower_properType_congr (Server.asciiLower_kind_congr hkind) hngsi
      have hgate := Client.gateType_of_plain hplain
      have hgate' := Client.gateType_of_plain hplain'
      refine outcome_congr hmake hmake' hlist (by rw [hgate, hgate', htype]) fun type hmem => ?_
      rw [hgate, hgate', ← Client.asciiLower_properType_iff hplain hmem,
        ← Client.asciiLower_properType_iff hplain' hmem, htype]

/-- A broker with the older interface, and the same with its kind in capitals. -/
def brokers : ServerTable := Dictionary.ofList
  [("orion", { serverType := "broker", serverHost := "http://localhost:1026" }),
   ("ORION", { serverType := "Broker", serverHost := "http://localhost:1026" })]

/-- The client for the broker passes a list in capitals, and is told of the newer interface by another. -/
theorem client_by_type_orion :
    let p : Execution := { session := { servers := brokers } }
    let r : ClientRequest := { host := "orion" }
    let c := Client.ofServer {} r "http://localhost:1026"
      { serverType := "broker", serverHost := "http://localhost:1026" }
    p.session.factory.make p.session.servers p.session.clientOptions r = .ok c ∧
      ((client (some ["comet", "BROKERV2"]) r).perform p).1 = .ok c ∧
      ((client (some ["BrokerLD"]) r).perform p).1 = .error .onlyLd := by
  intro p r c
  have hmake : p.session.factory.make p.session.servers p.session.clientOptions r = .ok c := by
    decide +kernel
  have hplain : c.server.Plain := fun _ => by decide +kernel
  obtain ⟨hok, _, _, _, _, _⟩ := client_by_type hmake (some ["comet", "BROKERV2"])
  obtain ⟨_, _, _, hturned, _, _⟩ := client_by_type hmake (some ["BrokerLD"])
  refine ⟨hmake, hok.2 (.inr ⟨_, rfl, "BROKERV2", by decide, by decide +kernel⟩),
    (hturned hplain).2.2.2 ⟨?_, by decide +kernel, _, rfl, "BrokerLD", by decide, by decide +kernel⟩⟩
  rintro (h | ⟨_, ⟨⟩, kind, hkind, hsame⟩)
  · cases h
  · obtain rfl := List.mem_singleton.1 hkind
    revert hsame
    decide +kernel

/-- **Not every broker passes a list of its type**: one in capitals is turned away. -/
theorem capital_broker : ¬ ∀ (p : Execution) (r : ClientRequest) (c : Client)
    (serverList : Option (List String)),
    p.session.factory.make p.session.servers p.session.clientOptions r = .ok c →
      (((client serverList r).perform p).1 = .ok c ↔ Admits serverList c.properType) := by
  intro h
  let p : Execution := { session := { servers := brokers } }
  let r : ClientRequest := { host := "ORION" }
  let c := Client.ofServer {} r "http://localhost:1026"
    { serverType := "Broker", serverHost := "http://localhost:1026" }
  have hmake : p.session.factory.make p.session.servers p.session.clientOptions r = .ok c := by
    decide +kernel
  have hok := (h p r c (some ["brokerv2", "brokerld"]) hmake).2
    (.inr ⟨_, rfl, "brokerv2", by decide, by decide +kernel⟩)
  have hturned : ((client (some ["brokerv2", "brokerld"]) r).perform p).1.isOk = false := by
    decide +kernel
  rw [hok] at hturned
  cases hturned

end Connect

end BrokerCli
