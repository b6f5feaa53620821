import ProducerPool.Proofs.Slots

/-!
# What a search discards

A request for a pooled producer goes through a queue.  It opens the first producer again that has not
failed and is of the generation in which the request began, and disposes of those that it passes over.  As
long as that generation lasts, only producers that have failed are passed over.

Listeners hear of each producer that is disposed of.  They may begin a new generation and park new
producers in the same queue, and the search, which goes on as it began, disposes of those as well although
nothing is wrong with them.
-/

set_option autoImplicit false

namespace ProducerPool

variable {σ : Type} {E : Environment σ Snapshot} {p q m : Pool σ Snapshot} {key : String} {epoch : Nat}
  {due : List Duty} {config : Config}

/-! ## Searches that are written down -/

/-- A producer that has been taken out of its queue to be disposed of, in the pool `now`. -/
structure Discard (σ : Type) where
  now : Pool σ Snapshot
  handle : Handle

namespace Discard

def producer (d : Discard σ) : Producer := d.now.get d.handle.producer

/-- Without a failure, and of the generation that is current when it is disposed of. -/
def isFit (d : Discard σ) : Bool :=
  !d.producer.isSpoiled && d.producer.epoch = d.now.factory.epoch

end Discard

namespace Pool

/-- The search of a queue, and before its outcome all that it discards, in order. -/
def search (E : Environment σ Snapshot) (key : String) (epoch : Nat) :
    Nat → Pool σ Snapshot → List (Discard σ) × Pool σ Snapshot × Option Handle
  | 0, p => ([], p, none)
  | fuel + 1, p =>
    match p.factory.cache.pop? key with
    | none => ([], p, none)
    | some (h, cache) =>
      let p := p.onFactory fun f => { f with cache := cache }
      match if p.isReusable epoch h then p.reopen? h else none with
      | some (p, fresh) => ([], p.lend fresh, some fresh)
      | none =>
        let now := p.pin h
        let rest := search E key epoch fuel ((now.retire E h now.factory.config.closeTimeout).unpin E h)
        (⟨now, h⟩ :: rest.1, rest.2)

/-- To write the discards down changes nothing. -/
theorem search_outcome (E : Environment σ Snapshot) (key : String) (epoch fuel : Nat)
    (p : Pool σ Snapshot) : (search E key epoch fuel p).2 = takeParked E key epoch fuel p := by
  induction fuel generalizing p with
  | zero => rfl
  | succ fuel ih =>
    cases found : p.factory.cache.pop? key with
    | none => simp only [search, takeParked, found]
    | some taken =>
      obtain ⟨h, cache⟩ := taken
      generalize popped : p.onFactory (fun f => { f with cache := cache }) = m
      cases fits : if m.isReusable epoch h then m.reopen? h else none with
      | some _ => simp only [search, takeParked, found, popped, fits]
      | none =>
        simp only [search, takeParked, found, popped, fits]
        exact ih _

/-- The search of a request that begins now. -/
def searchFor (E : Environment σ Snapshot) (k : Config.PoolKey) (p : Pool σ Snapshot) :
    List (Discard σ) × Pool σ Snapshot × Option Handle :=
  search E k.key p.factory.epoch (p.parkedBound E k.key) p

/-- What a request for a pooled producer discards before it is served. -/
def discards (E : Environment σ Snapshot) (scope : TransactionScope) (p : Pool σ Snapshot) :
    List (Discard σ) :=
  if p.factory.destroyed then []
  else
    match p.factory.config.poolKey scope with
    | .error _ => []
    | .ok k => (({ p with running := p.running + 1 } : Pool σ Snapshot).searchFor E k).1

/-- A request for a pooled producer is such a search, and a new producer is built if nothing is found. -/
theorem obtainPooled_eq_search {scope : TransactionScope} {k : Config.PoolKey}
    (known : p.factory.config.poolKey scope = .ok k) :
    p.obtainPooled E scope =
      match (p.searchFor E k).2 with
      | (m, some h) => (m, .ok h)
      | (m, none) => renewPooled E k m := by
  rcases found : takeParked E k.key p.factory.epoch (p.parkedBound E k.key) p with ⟨m, - | h⟩
  all_goals simp only [obtainPooled, known, searchFor, search_outcome, found]

/-! ## Discarded producers -/

/-- One turn of a search: nothing more is discarded, or the first producer of the queue is, because it is
not reusable. -/
theorem search_turn (E : Environment σ Snapshot) (key : String) (epoch fuel : Nat) (p : Pool σ Snapshot) :
    (search E key epoch (fuel + 1) p).1 = [] ∨
      ∃ h cache, p.factory.cache.pop? key = some (h, cache) ∧
        (p.isReusable epoch h = false ∨ (p.get h.producer).phase ≠ .cached) ∧
          (search E key epoch (fuel + 1) p).1 =
            ⟨(p.onFactory fun f => { f with cache := cache }).pin h, h⟩ ::
              (search E key epoch fuel ((((p.onFactory fun f => { f with cache := cache }).pin h).retire E h
                p.factory.config.closeTimeout).unpin E h)).1 := by
  cases found : p.factory.cache.pop? key with
  | none => exact Or.inl (by simp only [search, found])
  | some taken =>
    obtain ⟨h, cache⟩ := taken
    generalize popped : p.onFactory (fun f => { f with cache := cache }) = m
    have reusable : m.isReusable epoch h = p.isReusable epoch h := by rw [← popped]; rfl
    have phase : (m.get h.producer).phase = (p.get h.producer).phase := by rw [← popped]; rfl
    cases fits : if m.isReusable epoch h then m.reopen? h else none with
    | some _ => exact Or.inl (by simp only [search, found, popped, fits])
    | none =>
      refine Or.inr ⟨h, cache, rfl, ?_, ?_⟩
      · rw [reusable] at fits
        split at fits
        · refine Or.inr fun cached => ?_
          simp [reopen?, phase, cached] at fits
        · rename_i unfit
          exact Or.inl (Bool.eq_false_iff.mpr unfit)
      · simp only [search, found, popped, fits]
        rw [← popped]
        rfl

/-- A producer is discarded because it has failed, or because it is of another generation than the one in
which the search began; it was parked, in the generation that is current. -/
theorem search_discards (up : E.Upholds keptInvariant) (fuel : Nat)
    (holds : keptInvariant.holds due p) :
    ∀ d ∈ (search E key epoch fuel p).1, Path p d.now ∧ d.producer.phase = .cached ∧
      d.producer.epoch = d.now.factory.epoch ∧
        (d.producer.isSpoiled = true ∨ d.producer.epoch ≠ epoch) := by
  induction fuel generalizing p with
  | zero => exact List.forall_mem_nil _
  | succ fuel ih =>
    rcases search_turn E key epoch fuel p with none | ⟨h, cache, found, unfit, discarded⟩
    · rw [none]
      exact List.forall_mem_nil _
    have parked := Cache.parked_pop found
    have cached := holds.2.parked h (Cache.mem_items.mpr ⟨key, parked⟩)
    have popped : Step p ((p.onFactory fun f => { f with cache := cache }).pin h) :=
      .giveUp p [h] _ (.popped key h cache found)
    have disposed (m : Pool σ Snapshot) (timeout : Duration) :
        Path m ((m.retire E h timeout).unpin E h) :=
      (retire_balanced up.tame h timeout m).path.trans (unpin_leads up.tame h _).path
    rw [discarded]
    intro d member
    rcases List.mem_cons.mp member with rfl | later
    · refine ⟨.single popped, cached, (holds.1.ordered.placed.parked key h parked).2, ?_⟩
      have unfit := unfit.resolve_right fun unparked => unparked cached
      simp only [isReusable, Bool.and_eq_false_iff, decide_eq_false_iff_not, Bool.not_eq_false'] at unfit
      exact unfit.symm
    · have given : keptInvariant.holds (.close h.producer :: due)
          ((p.onFactory fun f => { f with cache := cache }).pin h) :=
        keptInvariant.move holds (.giveUp due p [h] _ (.popped key h cache found) rfl)
      have closed := up.unpin (up.retire given h p.factory.config.closeTimeout (.due due)) h
      obtain ⟨path, rest⟩ := ih closed d later
      exact ⟨.head popped ((disposed _ _).trans path), rest⟩

/-- What a request for a pooled producer passes over. -/
structure PassesOver (E : Environment σ Snapshot) (scope : TransactionScope) (p : Pool σ Snapshot) :
    Prop where
  /-- The request is served by the search of which these are the discards. -/
  served : ∀ k, p.factory.config.poolKey scope = .ok k →
    ({ p with running := p.running + 1 } : Pool σ Snapshot).obtainPooled E scope =
      match (({ p with running := p.running + 1 } : Pool σ Snapshot).searchFor E k).2 with
      | (m, some h) => (m, .ok h)
      | (m, none) => renewPooled E k m
  parked : ∀ d ∈ p.discards E scope, d.producer.phase = .cached
  /-- What is fit is passed over only if a new generation has begun since the request did, and it has been
  built since. -/
  unfit : ∀ d ∈ p.discards E scope, d.isFit = true →
    p.factory.epoch < d.now.factory.epoch ∧ p.producers.length ≤ d.handle.producer

end Pool

/-! ## Runs -/

/-- At every point of a run a request discards only what is unfit, as long as its generation lasts. -/
theorem discards_unfit (visited : Visited config p) (lawful : E.Lawful) (owned : 0 < p.owners)
    (scope : TransactionScope) : p.PassesOver E scope := by
  have up : E.Upholds keptInvariant := Environment.upholds_of_abstains
    (fun f runs p => (lawful f runs p).abstains) (fun _ _ => trivial) fun _ _ => trivial
  obtain ⟨outside, path⟩ := visited.path
  obtain ⟨due, seen⟩ := visited.holds (I := keptInvariant) (fun _ => trivial) (fun _ _ => trivial)
    fun outside => ⟨.new config outside, .new config outside⟩
  have looked : keptInvariant.holds due p := ⟨(Pool.Regular.new config outside).path path, seen.2.of_look⟩
  have holds : keptInvariant.holds due { p with running := p.running + 1 } :=
    keptInvariant.recount looked p.owners (p.running + 1) (Pool.alive_of_owners owned) (by omega)
  have discarded (d : Discard σ) (member : d ∈ p.discards E scope) :
      Path { p with running := p.running + 1 } d.now ∧ d.producer.phase = .cached ∧
        d.producer.epoch = d.now.factory.epoch ∧
          (d.producer.isSpoiled = true ∨ d.producer.epoch ≠ p.factory.epoch) := by
    unfold Pool.discards at member
    split at member
    · cases member
    split at member
    · cases member
    exact Pool.search_discards up _ holds d member
  refine ⟨fun k known => Pool.obtainPooled_eq_search known, fun d member => (discarded d member).2.1,
    fun d member fit => ?_⟩
  obtain ⟨sound, -⟩ := Bool.and_eq_true_iff.mp fit
  obtain ⟨reaches, -, current, unfit⟩ := discarded d member
  have other := unfit.resolve_left fun spoiled => by simp [spoiled] at sound
  have later := Later.of_path reaches
  have newer : p.factory.epoch < d.now.factory.epoch :=
    Nat.lt_of_le_of_ne later.epoch fun same => other (current.trans same.symm)
  refine ⟨newer, Nat.le_of_not_lt fun known => ?_⟩
  -- A producer that was there before is of no later generation than the request.
  have before := (later.get known).epoch
  have bound := holds.1.ordered.placed.epochs d.handle.producer known
  rw [← before] at bound
  exact absurd (Nat.lt_of_lt_of_eq newer current.symm) (Nat.not_lt.mpr bound)

/-- A pool in which the producer 0 waits in its queue and has failed since. -/
def Pool.fenced (E : Environment Unit Snapshot) (config : Config) : Pool Unit Snapshot :=
  (((Pool.new config ()).look.perform E [.addListener "l", .create 0, .close ⟨0, 0⟩ none]).deliver
    (fun _ _ p => p.look) ⟨0, 0⟩ (.error (.fenced "gone"))).look

theorem Pool.fenced_reached {E : Environment Unit Snapshot} (lawful : E.Lawful)
    (permits : (Pool.new config ()).look.Permits E [.addListener "l", .create 0, .close ⟨0, 0⟩ none]) :
    Reached config (Pool.fenced E config) :=
  ((Reached.start config ()).perform lawful _ permits).act lawful
    (.deliver (fun _ _ p => p.look) ⟨0, 0⟩ (.error (.fenced "gone")))
    (by rintro f ⟨⟩ q; exact .done q.look) trivial

/-- A producer that has failed while it was parked is discarded. -/
theorem discards_unfit_of_fenced :
    let config : Config := { idPrefix := some "a" }
    let p := Pool.fenced .quiet config
    Visited config p ∧ (Environment.quiet : Environment Unit Snapshot).Lawful ∧ 0 < p.owners ∧
      p.PassesOver .quiet .empty ∧ (p.discards .quiet .empty).map Discard.handle = [⟨0, 0⟩] := by
  intro config p
  have lawful : (Environment.quiet : Environment Unit Snapshot).Lawful := Environment.quiet_lawful
  have visited : Visited config p := (Pool.fenced_reached lawful (by decide +kernel)).visited
  have owned : 0 < p.owners := by decide +kernel
  exact ⟨visited, lawful, owned, discards_unfit visited lawful owned .empty, by decide +kernel⟩

/-! ## A new generation in the course of a search -/

/-- What a listener does that hears of a removal: it begins a new generation and parks a producer. -/
def renewal : List (Act Unit) := [.reset, .createFor .empty, .close ⟨1, 0⟩ none]

def Environment.restless : Environment Unit Snapshot :=
  { Environment.quiet with
    metrics := fun _ _ => [.ofParts "" "" 0 [(Metric.clientIdTag, "c")]]
    listen := fun _ notice p =>
      if notice.kind = .removed ∧ p.look.Permits .quiet renewal then
        (p.look.perform .quiet renewal, none)
      else (p.look, none)
    refills := 1 }

theorem Environment.restless_lawful : Environment.restless.Lawful := by
  refine .of_listen (fun _ _ _ => rfl) (fun _ _ _ _ => rfl) fun listener notice p => ?_
  dsimp only [Environment.restless]
  split
  case isTrue both => exact ⟨renewal, both.2, rfl⟩
  case isFalse => exact ⟨[], trivial, rfl⟩

/-- The search that disposes of the failed producer goes on to dispose of the one that has just been
parked, which is fit. -/
theorem discards_fit_after_reset :
    let config : Config := { idPrefix := some "a" }
    let p := Pool.fenced .restless config
    Environment.restless.Lawful ∧ Visited config p ∧ 0 < p.owners ∧
      ∃ d ∈ p.discards .restless .empty, d.handle = ⟨1, 0⟩ ∧ d.producer.phase = .cached ∧
        d.isFit = true := by
  intro config p
  have visited : Visited config p :=
    (Pool.fenced_reached Environment.restless_lawful (by decide +kernel)).visited
  exact ⟨Environment.restless_lawful, visited, by decide +kernel, by decide +kernel⟩

end ProducerPool
