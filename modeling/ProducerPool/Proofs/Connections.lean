import ProducerPool.Proofs.Course.Code
import ProducerPool.Proofs.TransactionalId

/-!
# What a connection is told

Each attempt to connect takes the next number, whether it succeeds or not, and a producer keeps the number
of its attempt.  The connection is told the properties of the configuration; only the client id is made
unique by the number, and the transactional id is that of the producer, if it is to have one.  A
transactional id among the properties is never told to any connection.
-/

set_option autoImplicit false

namespace ProducerPool

variable {σ μ : Type} {p q m : Pool σ Snapshot} {config raw : Config}

/-! ## Attempts to connect -/

/-- An attempt to connect, as it is written down. -/
structure Attempt where
  conn : Nat
  placement : Placement
  properties : Properties

namespace Attempt

/-- The number of the producer that is built if the attempt succeeds. -/
def id (a : Attempt) : Nat := a.conn + 1

def clientId? (a : Attempt) : Option Json := a.properties.get? clientIdKey

def transactionalId? (a : Attempt) : Option Json := a.properties.get? transactionalIdKey

end Attempt

/-- Whether a producer of this placement is transactional: a pooled one always, one of a thread where the
configuration has a prefix. -/
def Placement.isTransactional (config : Config) : Placement → Bool
  | .shared => false
  | .thread _ => config.isTransactional
  | .pooled _ => true

def Event.attempt? : Event μ → Option Attempt
  | .connecting conn placement properties => some ⟨conn, placement, properties⟩
  | _ => none

/-- The attempts among the events, of which the latest comes first; the first attempt comes first. -/
def attempts (events : List (Event μ)) : List Attempt := (events.filterMap Event.attempt?).reverse

def Pool.attempts (p : Pool σ Snapshot) : List Attempt := ProducerPool.attempts p.journal

theorem attempts_cons (e : Event μ) (events : List (Event μ)) :
    attempts (e :: events) = attempts events ++ e.attempt?.toList := by
  cases made : e.attempt? <;> simp [attempts, made]

/-- Only events that matter are attempts. -/
theorem attempts_filter (events : List (Event μ)) :
    attempts (events.filter Event.matters) = attempts events := by
  induction events with
  | nil => rfl
  | cons e events ih =>
    cases matters : e.matters with
    | true => rw [List.filter_cons_of_pos matters, attempts_cons, attempts_cons, ih]
    | false =>
      have none : e.attempt? = none := by
        cases e with
        | connecting => cases matters
        | _ => rfl
      rw [List.filter_cons_of_neg (by simp [matters]), ih, attempts_cons, none, Option.toList_none,
        List.append_nil]

/-! ## Properties of a connection -/

/-- A client id that is a text is made unique by a number; any other value stays as it is. -/
def Json.suffixed (id : Nat) : Json → Json
  | .text base => .text (base ++ "-" ++ toString id)
  | value => value

theorem Json.suffixed_injective {value : Json} {a b : Nat} {s : String}
    (first : value.suffixed a = .text s) (second : value.suffixed b = .text s) : a = b := by
  cases value with
  | text base =>
    have same : base ++ "-" ++ toString a = base ++ "-" ++ toString b :=
      Json.text.inj (first.trans second.symm)
    exact numberText_injective ((String.append_right_inj _).mp same)
  | _ => cases first

namespace Pool

theorem get?_untransactional (config : Config) (id : Nat) (key : String) :
    (connectionProperties config id none).get? key =
      if key = clientIdKey then (config.properties.get? clientIdKey).map (Json.suffixed id)
      else config.properties.get? key := by
  unfold connectionProperties
  dsimp only
  split
  · rename_i base found
    obtain ⟨value, there, text⟩ := Option.bind_eq_some_iff.mp found
    cases value with
    | text s =>
      obtain rfl := Option.some.inj text
      rw [Properties.get?_set, there]
      rfl
    | _ => cases text
  · rename_i absent
    split
    · rename_i same
      rw [same]
      cases there : config.properties.get? clientIdKey with
      | none => rfl
      | some value =>
        rw [there] at absent
        cases value with
        | text => cases absent
        | _ => rfl
    · rfl

theorem get?_connectionProperties (config : Config) (id : Nat) (transactionalId : Option String)
    (key : String) :
    (connectionProperties config id transactionalId).get? key =
      if key = transactionalIdKey then
        (transactionalId.map Json.text).or (config.properties.get? transactionalIdKey)
      else if key = clientIdKey then (config.properties.get? clientIdKey).map (Json.suffixed id)
      else config.properties.get? key := by
  have apart : transactionalIdKey ≠ clientIdKey := by decide
  cases transactionalId with
  | none =>
    rw [get?_untransactional]
    by_cases same : key = transactionalIdKey
    · rw [if_pos same, same, if_neg apart]
      rfl
    · rw [if_neg same]
  | some text =>
    show ((connectionProperties config id none).set transactionalIdKey (.text text)).get? key = _
    rw [Properties.get?_set, get?_untransactional]
    rfl

/-- A configuration that has been accepted tells no transactional id of its own. -/
theorem get?_accepted (raw : Config) (id : Nat) (transactionalId : Option String) (key : String) :
    (connectionProperties raw.normalized id transactionalId).get? key =
      if key = transactionalIdKey then transactionalId.map .text
      else if key = clientIdKey then (raw.properties.get? clientIdKey).map (Json.suffixed id)
      else raw.properties.get? key := by
  have apart : clientIdKey ≠ transactionalIdKey := by decide
  rw [get?_connectionProperties]
  simp only [Config.get?_normalized, if_true, if_neg apart, Option.or_none]
  split <;> rfl

end Pool

theorem Factory.Names.isSome {f : Factory} {placement : Placement} {transactionalId : Option String}
    {n : Nat} (names : f.Names placement transactionalId n) :
    transactionalId.isSome = placement.isTransactional f.config := by
  cases names with
  | bound t bare => simp [Placement.isTransactional, Config.isTransactional, bare]
  | boundDrawn t idPrefix drawn => simp [Placement.isTransactional, Config.isTransactional, drawn]
  | _ => rfl

/-! ## What stays true -/

namespace Essence

variable {x y : Essence}

/-- The attempts are numbered in order, and each producer of the factory comes from one of them. -/
structure Wired (x : Essence) : Prop where
  counted : x.nextId = x.connections + 1
  numbers : (attempts x.events).map Attempt.conn = List.range x.connections
  told : ∀ a ∈ attempts x.events, ∃ transactionalId,
    a.properties = Pool.connectionProperties x.config a.id transactionalId ∧
      transactionalId.isSome = a.placement.isTransactional x.config
  built : ∀ r, (x.get r).owned = true → ∃ a ∈ attempts x.events, a.conn = (x.get r).conn ∧
    a.id = (x.get r).id ∧ a.placement = (x.get r).placement ∧
      a.properties = Pool.connectionProperties x.config a.id (x.get r).transactionalId
  rising : ∀ r s, r < s → (x.get r).owned = true → (x.get s).owned = true →
    (x.get r).conn < (x.get s).conn

namespace Wired

theorem conn_lt (wired : x.Wired) {a : Attempt} (made : a ∈ attempts x.events) :
    a.conn < x.connections := by
  have member := List.mem_map_of_mem (f := Attempt.conn) made
  rw [wired.numbers] at member
  exact List.mem_range.mp member

/-- No attempt is made and no producer is built. -/
theorem idle (wired : x.Wired) (config : y.config = x.config) (nextId : y.nextId = x.nextId)
    (connections : y.connections = x.connections) (same : attempts y.events = attempts x.events)
    (identity : ∀ r, (y.get r).owned = true → y.get r = { x.get r with failure := (y.get r).failure }) :
    y.Wired where
  counted := by rw [nextId, connections, wired.counted]
  numbers := by rw [same, connections, wired.numbers]
  told := by
    rw [same, config]
    exact wired.told
  built r there := by
    have before := identity r there
    rw [before] at there
    rw [before, same, config]
    exact wired.built r there
  rising r s less there there' := by
    have before := identity r there
    have before' := identity s there'
    rw [before] at there ⊢
    rw [before'] at there' ⊢
    exact wired.rising r s less there there'

theorem note (wired : x.Wired) {e : Event Snapshot} (none : e.attempt? = none) : (x.note e).Wired :=
  wired.idle rfl rfl rfl
    (by rw [Essence.note, attempts_cons, none, Option.toList_none, List.append_nil]) fun _ _ => rfl

theorem spoil (wired : x.Wired) (r : Ref) (error : ClientError) : (x.spoil r error).Wired := by
  refine wired.idle rfl rfl rfl rfl fun s _ => ?_
  rw [get_spoil]
  split <;> rfl

theorem answered (wired : x.Wired) (r : Ref) (conn : Nat) (operation : Operation) (reply : Reply) :
    (x.answered r conn operation reply).Wired := by
  unfold Essence.answered
  split
  · exact wired
  · exact (wired.note rfl).spoil _ _

theorem delivered (wired : x.Wired) (there : Bool) (d : Delivery) (outcome : Outcome) :
    (x.delivered there d outcome).Wired := by
  unfold Essence.delivered
  split
  · exact wired.note rfl
  · split
    · exact (wired.spoil _ _).note rfl
    · exact wired.note rfl

theorem requested (wired : x.Wired) (request : Request) : (x.requested request).Wired := by
  obtain ⟨_, _, _, requested⟩ := x.requested_eq request
  rw [requested]
  exact (wired.note (e := .requested request) rfl).idle rfl rfl rfl rfl fun _ _ => rfl

/-- A copy is no producer of the factory. -/
theorem copied (wired : x.Wired) (r : Ref) : (x.copied r).Wired := by
  refine wired.idle rfl rfl rfl rfl fun s there => ?_
  have get := get_append (y := x.copied r) rfl s
  rw [get] at there ⊢
  split at there
  · cases there
  · rename_i old
    rw [if_neg old]

theorem attempted (wired : x.Wired) {placement : Placement} {transactionalId : Option String}
    (named : transactionalId.isSome = placement.isTransactional x.config) :
    (x.attempted placement transactionalId).Wired := by
  have made : attempts (x.attempted placement transactionalId).events = attempts x.events ++
      [⟨x.connections, placement, Pool.connectionProperties x.config x.nextId transactionalId⟩] :=
    attempts_cons _ _
  refine ⟨?_, ?_, ?_, ?_, wired.rising⟩
  · exact congrArg (· + 1) wired.counted
  · rw [made, List.map_append, wired.numbers]
    exact List.range_succ.symm
  · intro a member
    rw [made] at member
    rcases List.mem_append.mp member with before | last
    · exact wired.told a before
    · obtain rfl := List.mem_singleton.mp last
      exact ⟨transactionalId, by rw [wired.counted]; rfl, named⟩
  · intro r there
    obtain ⟨a, member, rest⟩ := wired.built r there
    rw [made]
    exact ⟨a, List.mem_append_left _ member, rest⟩

theorem of_built (wired : x.Wired) {placement : Placement} {transactionalId : Option String}
    (clientId : Option String)
    (named : transactionalId.isSome = placement.isTransactional x.config) :
    (x.built placement transactionalId clientId).Wired := by
  have tried := (wired.attempted named).note (e := .leased ⟨x.producers.length, 0⟩) rfl
  have get (r : Ref) := get_append (x := x) (y := x.built placement transactionalId clientId) rfl r
  have bound {r : Ref} (there : (x.get r).owned = true) : (x.get r).conn < x.connections := by
    obtain ⟨a, member, conn, -⟩ := wired.built r there
    exact conn ▸ wired.conn_lt member
  refine ⟨tried.counted, tried.numbers, tried.told, fun r there => ?_, fun r s less there there' => ?_⟩
  · rw [get] at there ⊢
    split at there
    · rename_i last
      rw [if_pos last]
      refine ⟨⟨x.connections, placement, Pool.connectionProperties x.config x.nextId transactionalId⟩,
        ?_, rfl, wired.counted.symm, rfl, by rw [wired.counted]; rfl⟩
      simp [Essence.built, Essence.note, Essence.attempted, attempts, Event.attempt?]
    · rename_i old
      rw [if_neg old]
      exact tried.built r there
  · rw [get] at there' ⊢
    rw [get] at there
    have inside : r ≠ x.producers.length := by
      -- Whatever comes before a producer is not the last.
      rintro rfl
      rw [if_neg (Nat.ne_of_gt less)] at there'
      exact absurd (lt_of_owned there') (Nat.not_lt.mpr (Nat.le_of_lt less))
    rw [if_neg inside] at there ⊢
    rw [get]
    split at there'
    · rename_i last
      rw [if_pos last]
      exact bound there
    · rename_i old
      rw [if_neg old]
      exact wired.rising r s less there there'

end Wired

end Essence

theorem Pool.wired_keeps : Keeps (σ := σ) fun p => p.essence.Wired where
  turn p q x wired changes turns := by
    rw [turns.essence]
    cases changes with
    | still => exact wired
    | copy r owned => exact wired.copied r
    | build placement transactionalId clientId n names => exact wired.of_built clientId names.isSome
    | fail placement transactionalId n names => exact wired.attempted names.isSome
    | request request => exact wired.requested request
  look p wired := by
    rw [essence_look]
    exact wired
  call p m q h operation reply first may inner wired turns := by
    rw [turns.essence]
    exact wired.answered ..
  deliver p q d outcome wired turns := by
    rw [essence_look] at wired
    rw [turns.essence]
    exact wired.delivered ..

theorem Visited.wired (visited : Visited config p) : p.essence.Wired := by
  refine Pool.wired_keeps.visited (fun outside => ?_) visited
  have none {r : Ref}
      (there : ((Pool.new config outside : Pool σ Snapshot).essence.get r).owned = true) : False :=
    Nat.not_lt_zero r (Essence.lt_of_owned there)
  exact ⟨rfl, rfl, fun _ => List.not_mem_nil.elim, fun _ there => (none there).elim,
    fun _ _ _ there => (none there).elim⟩

theorem Visited.essence_config (visited : Visited config p) : p.essence.config = config :=
  (Pool.Named.of_visited visited).configured

/-! ## Connections of a run -/

namespace Pool

/-- What connections are told when the configuration `raw` has been accepted as `config`. -/
structure Connects (raw config : Config) (p : Pool σ Snapshot) : Prop where
  /-- A configured transactional id is at most a prefix. -/
  idPrefix : config.idPrefix = raw.idPrefix.or
    (((raw.properties.get? transactionalIdKey).bind Json.text?).filter fun id => id ≠ "")
  /-- Attempts are numbered in order, and the next number is drawn for the next one. -/
  numbers : p.attempts.map Attempt.conn = List.range p.attempts.length
  next : p.factory.nextId = p.attempts.length + 1
  clientId : ∀ a ∈ p.attempts,
    a.clientId? = (raw.properties.get? clientIdKey).map (Json.suffixed a.id)
  transactionalId : ∀ a ∈ p.attempts, ∃ id : Option String,
    a.transactionalId? = id.map .text ∧ id.isSome = a.placement.isTransactional config
  others : ∀ a ∈ p.attempts, ∀ key, key ≠ clientIdKey → key ≠ transactionalIdKey →
    a.properties.get? key = raw.properties.get? key
  /-- The numbers rise, and no two connections are told the same text as client id. -/
  apart : p.attempts.Pairwise fun a b => a.id < b.id ∧
    ∀ s, a.clientId? = some (.text s) → b.clientId? ≠ some (.text s)
  /-- A producer of the factory has the number and the transactional id of its attempt. -/
  built : ∀ r, (p.get r).owned = true → ∃ a, p.attempts[(p.get r).conn]? = some a ∧
    (p.get r).id = a.id ∧ (p.get r).placement = a.placement ∧
      a.transactionalId? = (p.get r).transactionalId.map .text
  /-- Producers have the higher number the later they are built. -/
  rising : ∀ r s, r < s → (p.get r).owned = true → (p.get s).owned = true →
    (p.get r).id < (p.get s).id

end Pool

theorem Visited.numbers (visited : Visited config p) :
    p.attempts.map Attempt.conn = List.range p.attempts.length := by
  have numbers := visited.wired.numbers
  rw [p.essence_events, attempts_filter] at numbers
  have length := congrArg List.length numbers
  rw [List.length_map, List.length_range] at length
  rw [Pool.attempts, length]
  exact numbers

/-- The attempts stand in the order of their numbers. -/
theorem Visited.attempt_at (visited : Visited config p) {a : Attempt} (made : a ∈ p.attempts) :
    p.attempts[a.conn]? = some a := by
  obtain ⟨i, there⟩ := List.mem_iff_getElem?.mp made
  have number := congrArg (fun xs => xs[i]?) visited.numbers
  rw [List.getElem?_map, there, List.getElem?_range (List.getElem?_eq_some_iff.mp there).1] at number
  obtain rfl : a.conn = i := Option.some.inj number
  exact there

/-- What an attempt was told, and by whom its transactional id was drawn. -/
theorem Visited.told (visited : Visited config p) {a : Attempt} (made : a ∈ p.attempts) :
    ∃ transactionalId, a.properties = Pool.connectionProperties config a.id transactionalId ∧
      transactionalId.isSome = a.placement.isTransactional config := by
  have told := visited.wired.told a
  rw [p.essence_events, attempts_filter, visited.essence_config] at told
  exact told made

/-- Each producer of the factory comes from the attempt of its connection. -/
theorem Visited.built (visited : Visited config p) {r : Ref} (owned : (p.get r).owned = true) :
    ∃ a ∈ p.attempts, a.conn = (p.get r).conn ∧ a.id = (p.get r).id ∧
      a.placement = (p.get r).placement ∧
        a.properties = Pool.connectionProperties config a.id (p.get r).transactionalId := by
  have built := visited.wired.built r (by rw [p.essence_owned]; exact owned)
  rw [p.essence_events, attempts_filter, p.essence_get, visited.essence_config] at built
  exact built

theorem Visited.rising (visited : Visited config p) {r s : Ref} (less : r < s)
    (owned : (p.get r).owned = true) (owned' : (p.get s).owned = true) :
    (p.get r).id < (p.get s).id := by
  have rising := visited.wired.rising r s less (by rw [p.essence_owned]; exact owned)
    (by rw [p.essence_owned]; exact owned')
  rw [p.essence_conn, p.essence_conn] at rising
  obtain ⟨a, -, conn, id, -⟩ := visited.built owned
  obtain ⟨b, -, conn', id', -⟩ := visited.built owned'
  rw [← id, ← id', Attempt.id, Attempt.id, conn, conn']
  exact Nat.succ_lt_succ rising

/-- Every connection of a run is told what the configuration says. -/
theorem connections_follow_config (accepted : raw.accept? = .ok config) (visited : Visited config p) :
    p.Connects raw config := by
  obtain rfl := Config.eq_normalized accepted
  have apart : clientIdKey ≠ transactionalIdKey := by decide
  have clientId (a : Attempt) (made : a ∈ p.attempts) :
      a.clientId? = (raw.properties.get? clientIdKey).map (Json.suffixed a.id) := by
    obtain ⟨transactionalId, properties, -⟩ := visited.told made
    rw [Attempt.clientId?, properties, Pool.get?_accepted, if_neg apart, if_pos rfl]
  refine ⟨raw.idPrefix_normalized, visited.numbers, ?_, clientId, fun a made => ?_,
    fun a made key other other' => ?_, ?_, fun r owned => ?_, fun r s => visited.rising⟩
  · have counted := visited.wired.counted
    have length := congrArg List.length visited.wired.numbers
    rw [p.essence_events, attempts_filter, List.length_map, List.length_range] at length
    rw [Pool.attempts, length]
    exact counted
  · obtain ⟨transactionalId, properties, named⟩ := visited.told made
    refine ⟨transactionalId, ?_, named⟩
    rw [Attempt.transactionalId?, properties, Pool.get?_accepted, if_pos rfl]
  · obtain ⟨transactionalId, properties, -⟩ := visited.told made
    rw [properties, Pool.get?_accepted, if_neg other', if_neg other]
  · have rising : p.attempts.Pairwise fun a b => a.id < b.id := by
      have numbers := List.pairwise_lt_range (n := p.attempts.length)
      rw [← visited.numbers, List.pairwise_map] at numbers
      exact numbers.imp Nat.succ_lt_succ
    refine rising.imp_of_mem fun {a b} made made' less => ⟨less, fun s first second => ?_⟩
    -- Two numbers behind one base make two texts.
    rw [clientId a made, Option.map_eq_some_iff] at first
    rw [clientId b made', Option.map_eq_some_iff] at second
    obtain ⟨value, configured, text⟩ := first
    obtain ⟨value', configured', text'⟩ := second
    obtain rfl : value = value' := Option.some.inj (configured.symm.trans configured')
    exact Nat.ne_of_lt less (Json.suffixed_injective text text')
  · obtain ⟨a, made, conn, id, placement, properties⟩ := visited.built owned
    refine ⟨a, conn ▸ visited.attempt_at made, id.symm, placement.symm, ?_⟩
    rw [Attempt.transactionalId?, properties, Pool.get?_accepted, if_pos rfl]

/-- The second of three attempts fails: its number is not used again. -/
theorem connections_follow_config_past_failure :
    let raw : Config :=
      { properties := [("client.id", .text "c"), ("retries", .null), ("transactional.id", .text "t")] }
    let config : Config :=
      { properties := [("client.id", .text "c"), ("retries", .null)], idPrefix := some "t" }
    let E : Environment Unit Snapshot :=
      { Environment.quiet with
        connect := fun conn _ outside => (outside, if conn = 1 then .error (.timeout "busy") else .ok ()) }
    let p := (Pool.new config ()).look.perform E [.create 0, .create 0, .create 0]
    raw.accept? = .ok config ∧ Visited config p ∧ p.Connects raw config ∧
      (p.get 0).id = 1 ∧ (p.get 1).id = 3 ∧
        p.attempts.map (fun a => a.clientId?.bind Json.text?) =
            [some "c-1", some "c-2", some "c-3"] ∧
          p.attempts.map (fun a => a.transactionalId?.bind Json.text?) =
            [some "t0", some "t1", some "t2"] := by
  intro raw config E p
  have accepted : raw.accept? = .ok config := rfl
  have lawful : E.Lawful := by
    intro f runs p
    cases runs <;> exact .done p.look
  have visited : Visited config p := ((Reached.start config ()).perform lawful
    [.create 0, .create 0, .create 0] (by decide +kernel)).visited
  refine ⟨accepted, visited, connections_follow_config accepted visited, ?_⟩
  decide +kernel

end ProducerPool
