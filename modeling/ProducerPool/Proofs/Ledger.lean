import ProducerPool.Proofs.Places

/-!
# The accounts of connections

Each producer has an account: the number of its connection and whether it is closed.  A `Ledger` says
that accounts and journal agree: a connection that came about has been closed exactly once if it could
not be initialised or if its producer is closed, and not at all otherwise, and nothing was called on it
after that.  Every step keeps the ledger.
-/

set_option autoImplicit false

namespace ProducerPool

section Journal

variable {μ : Type} {e : Event μ} {conn : Nat} {events journal : List (Event μ)}

/-! ## What a journal says about a connection -/

/-- The connection that an event tells about: it has come about, has been initialised, or is called. -/
def Event.subject? : Event μ → Option Nat
  | .connected conn (.ok ()) | .called conn _ | .replied conn .initTransactions _ => some conn
  | _ => none

/-- Whether an event is a raw call on a connection. -/
def Event.calls (conn : Nat) : Event μ → Bool
  | .called c _ => c = conn
  | _ => false

/-- Whether an event is a raw close of a connection. -/
def Event.closes (conn : Nat) : Event μ → Bool
  | .called c (.close _) => c = conn
  | _ => false

def Connected (conn : Nat) (journal : List (Event μ)) : Prop := .connected conn (.ok ()) ∈ journal

def InitFailed (conn : Nat) (journal : List (Event μ)) : Prop :=
  ∃ error, .replied conn .initTransactions (.error error) ∈ journal

/-- How many raw closes a connection has received. -/
def closeCount (conn : Nat) (journal : List (Event μ)) : Nat := journal.countP (Event.closes conn)

/-- Nothing in the journal tells about the connection. -/
def Silent (conn : Nat) (journal : List (Event μ)) : Prop := ∀ e ∈ journal, e.subject? ≠ some conn

/-- No raw call on a connection comes after a close of it. -/
def Orderly (journal : List (Event μ)) : Prop :=
  journal.Pairwise fun later earlier =>
    ∀ conn, earlier.closes conn = true → later.calls conn = false

theorem Event.subject?_of_calls (calls : e.calls conn = true) : e.subject? = some conn := by
  cases e with
  | called c call =>
    obtain rfl : c = conn := of_decide_eq_true calls
    rfl
  | _ => cases calls

theorem Event.calls_of_closes (closes : e.closes conn = true) : e.calls conn = true := by
  cases e with
  | called c call =>
    cases call with
    | close => exact closes
    | _ => cases closes
  | _ => cases closes

theorem Event.subject?_of_isPlain (plain : e.isPlain = true) : e.subject? = none := by
  cases e with
  | replied c operation reply =>
    cases operation with
    | initTransactions => cases plain
    | _ => rfl
  | connected => cases plain
  | called => cases plain
  | _ => rfl

theorem connected_append :
    Connected conn (events ++ journal) ↔ Connected conn events ∨ Connected conn journal :=
  List.mem_append

theorem initFailed_append :
    InitFailed conn (events ++ journal) ↔ InitFailed conn events ∨ InitFailed conn journal := by
  simp [InitFailed, exists_or]

theorem closeCount_append :
    closeCount conn (events ++ journal) = closeCount conn events + closeCount conn journal :=
  List.countP_append

theorem Silent.not_connected (silent : Silent conn journal) : ¬Connected conn journal :=
  fun connected => silent _ connected rfl

theorem Silent.not_initFailed (silent : Silent conn journal) : ¬InitFailed conn journal :=
  fun ⟨_, failed⟩ => silent _ failed rfl

theorem Silent.closeCount (silent : Silent conn journal) : closeCount conn journal = 0 :=
  List.countP_eq_zero.mpr fun e member closes =>
    silent e member (Event.subject?_of_calls (Event.calls_of_closes closes))

theorem closeCount_pos_of_mem (member : e ∈ journal) (closes : e.closes conn = true) :
    0 < closeCount conn journal := List.countP_pos_iff.mpr ⟨e, member, closes⟩

/-- Events about one connection follow a journal in which that connection is not closed. -/
theorem Orderly.append (conn : Nat) (first : Orderly journal) (then_ : Orderly events)
    (about : ∀ other, other ≠ conn → Silent other events) (unclosed : closeCount conn journal = 0) :
    Orderly (events ++ journal) := by
  refine List.pairwise_append.mpr ⟨then_, first, fun later new earlier old c closes => ?_⟩
  rw [← Bool.not_eq_true]
  intro calls
  by_cases same : c = conn
  · rw [same] at closes
    have counted := closeCount_pos_of_mem old closes
    omega
  · exact about c same later new (Event.subject?_of_calls calls)

end Journal

/-! ## What closing and connecting write -/

section Written

variable {μ : Type} {conn other : Nat} {events : List (Event μ)}

theorem Closing.about (closing : Closing conn events) (apart : other ≠ conn) :
    Silent other events := by
  cases closing <;> simp [Silent, Event.subject?, apart.symm]

theorem Closing.orderly (closing : Closing conn events) : Orderly events := by
  cases closing <;> simp [Orderly, Event.calls]

theorem Closing.not_initFailed (closing : Closing conn events) : ¬InitFailed other events := by
  cases closing <;> simp [InitFailed]

theorem Closing.closeCount (closing : Closing conn events) : closeCount conn events = 1 := by
  cases closing <;> simp [ProducerPool.closeCount, Event.closes]

theorem Connecting.about (connecting : Connecting conn events) (apart : other ≠ conn) :
    Silent other events := by
  cases connecting <;> simp [Silent, Event.subject?, apart.symm]

theorem Connecting.orderly (connecting : Connecting conn events) : Orderly events := by
  cases connecting <;> simp [Orderly, Event.calls, Event.closes]

theorem Connecting.connected (connecting : Connecting conn events) : Connected conn events := by
  cases connecting <;> simp [Connected]

theorem Connecting.not_initFailed (connecting : Connecting conn events) :
    ¬InitFailed other events := by
  cases connecting <;> simp [InitFailed]

theorem Connecting.closeCount (connecting : Connecting conn events) :
    closeCount conn events = 0 := by
  cases connecting <;> simp [ProducerPool.closeCount, Event.closes]

/-- A connection that fails leaves no trace, or it has come about and has been closed once. -/
theorem Failing.cases (failing : Failing conn events) :
    (∀ other, Silent other events) ∨
      (∀ other, other ≠ conn → Silent other events) ∧ Orderly events ∧ Connected conn events ∧
        InitFailed conn events ∧ ProducerPool.closeCount conn events = 1 := by
  cases failing with
  | refused => exact Or.inl fun other => by simp [Silent, Event.subject?]
  | uninitialised placement properties error closing closed =>
    refine Or.inr ⟨fun other apart e member => ?_, ?_, ?_, ?_, ?_⟩
    · rcases List.mem_append.mp member with closes | opens
      · exact closed.about apart e closes
      · simp only [List.mem_cons, List.not_mem_nil, or_false] at opens
        rcases opens with rfl | rfl | rfl | rfl <;> simp [Event.subject?, apart.symm]
    · refine Orderly.append conn ?_ closed.orderly (fun _ => closed.about) ?_
      · simp [Orderly, Event.calls, Event.closes]
      · simp [ProducerPool.closeCount, Event.closes]
    · simp [Connected]
    · simp [InitFailed]
    · rw [closeCount_append, closed.closeCount]
      simp [ProducerPool.closeCount, Event.closes]

end Written

/-! ## Agreement of accounts and journal -/

structure Ledger {μ : Type} (connections : Nat) (accounts : List (Nat × Bool))
    (journal : List (Event μ)) : Prop where
  numbered : ∀ conn, connections ≤ conn → Silent conn journal
  balance : ∀ a ∈ accounts, Connected a.1 journal ∧ ¬InitFailed a.1 journal ∧
    closeCount a.1 journal = if a.2 then 1 else 0
  covered : ∀ conn, Connected conn journal →
    InitFailed conn journal ∧ closeCount conn journal = 1 ∨ ∃ a ∈ accounts, a.1 = conn
  unconnected : ∀ conn, ¬Connected conn journal → closeCount conn journal = 0
  /-- Where two accounts are of one connection, both are closed. -/
  single : accounts.Pairwise fun a b => a.1 = b.1 → a.2 = true ∧ b.2 = true
  orderly : Orderly journal

namespace Ledger

variable {μ : Type} {n m conn : Nat} {accounts others : List (Nat × Bool)}
  {journal events : List (Event μ)}

theorem nil : Ledger 0 [] ([] : List (Event μ)) where
  numbered _ _ := List.forall_mem_nil _
  balance := List.forall_mem_nil _
  covered _ connected := by cases connected
  unconnected _ _ := rfl
  single := .nil
  orderly := .nil

/-- Events that tell about no connection. -/
theorem note (ledger : Ledger n accounts journal) (events : List (Event μ))
    (silent : ∀ conn, Silent conn events)
    (more : n ≤ m) : Ledger m accounts (events ++ journal) := by
  have connected (conn : Nat) : Connected conn (events ++ journal) ↔ Connected conn journal := by
    rw [connected_append, or_iff_right (silent conn).not_connected]
  have failed (conn : Nat) : InitFailed conn (events ++ journal) ↔ InitFailed conn journal := by
    rw [initFailed_append, or_iff_right (silent conn).not_initFailed]
  have count (conn : Nat) : closeCount conn (events ++ journal) = closeCount conn journal := by
    rw [closeCount_append, (silent conn).closeCount, Nat.zero_add]
  refine ⟨?_, ?_, ?_, ?_, ledger.single, ?_⟩
  · intro conn beyond e member
    rcases List.mem_append.mp member with new | old
    · exact silent conn e new
    · exact ledger.numbered conn (Nat.le_trans more beyond) e old
  · intro a member
    rw [connected, failed, count]
    exact ledger.balance a member
  · intro conn there
    rw [failed, count]
    exact ledger.covered conn ((connected conn).mp there)
  · intro conn absent
    rw [count]
    exact ledger.unconnected conn fun there => absent ((connected conn).mpr there)
  · refine List.pairwise_append.mpr ⟨?_, ledger.orderly, ?_⟩
    · refine List.pairwise_of_forall_mem_list fun later member earlier _ c _ => ?_
      rw [← Bool.not_eq_true]
      exact fun calls => silent c later member (Event.subject?_of_calls calls)
    · intro later member earlier _ c _
      rw [← Bool.not_eq_true]
      exact fun calls => silent c later member (Event.subject?_of_calls calls)

/-- Events that tell about one connection, which has not been closed before. -/
theorem append (conn : Nat) (ledger : Ledger n accounts journal)
    (about : ∀ other, other ≠ conn → Silent other events) (orderly : Orderly events)
    (unclosed : closeCount conn journal = 0) (more : n ≤ m) (numbered : conn < m)
    (same : ∀ a : Nat × Bool, a.1 ≠ conn → (a ∈ others ↔ a ∈ accounts))
    (balance : ∀ a ∈ others, a.1 = conn → Connected conn (events ++ journal) ∧
      ¬InitFailed conn (events ++ journal) ∧
        closeCount conn (events ++ journal) = if a.2 then 1 else 0)
    (covered : Connected conn (events ++ journal) ∧
      (InitFailed conn (events ++ journal) ∧ closeCount conn (events ++ journal) = 1 ∨
        ∃ a ∈ others, a.1 = conn))
    (single : others.Pairwise fun a b => a.1 = b.1 → a.2 = true ∧ b.2 = true) :
    Ledger m others (events ++ journal) := by
  have connected {other : Nat} (apart : other ≠ conn) :
      Connected other (events ++ journal) ↔ Connected other journal := by
    rw [connected_append, or_iff_right (about other apart).not_connected]
  have failed {other : Nat} (apart : other ≠ conn) :
      InitFailed other (events ++ journal) ↔ InitFailed other journal := by
    rw [initFailed_append, or_iff_right (about other apart).not_initFailed]
  have count {other : Nat} (apart : other ≠ conn) :
      closeCount other (events ++ journal) = closeCount other journal := by
    rw [closeCount_append, (about other apart).closeCount, Nat.zero_add]
  refine ⟨?_, ?_, ?_, ?_, single, ledger.orderly.append conn orderly about unclosed⟩
  · intro other beyond e member
    have apart : other ≠ conn := by omega
    rcases List.mem_append.mp member with new | old
    · exact about other apart e new
    · exact ledger.numbered other (Nat.le_trans more beyond) e old
  · intro a member
    by_cases own : a.1 = conn
    · rw [own]
      exact balance a member own
    · rw [connected own, failed own, count own]
      exact ledger.balance a ((same a own).mp member)
  · intro other there
    by_cases own : other = conn
    · rw [own]
      exact covered.2
    · rw [failed own, count own]
      refine (ledger.covered other ((connected own).mp there)).imp_right fun found => ?_
      obtain ⟨a, member, rfl⟩ := found
      exact ⟨a, (same a own).mpr member, rfl⟩
  · intro other absent
    by_cases own : other = conn
    · rw [own] at absent
      exact absurd covered.1 absent
    · rw [count own]
      exact ledger.unconnected other fun there => absent ((connected own).mpr there)

theorem numbered_of_account (ledger : Ledger n accounts journal) {a : Nat × Bool}
    (member : a ∈ accounts) : a.1 < n := by
  refine Nat.lt_of_not_le fun beyond => ?_
  exact (ledger.numbered a.1 beyond).not_connected (ledger.balance a member).1

/-- A raw call on a connection that is not closed. -/
theorem call (ledger : Ledger n accounts journal) {call : RawCall}
    (member : (conn, false) ∈ accounts) (use : call.operation ≠ .close) :
    Ledger n accounts (.called conn call :: journal) := by
  obtain ⟨connected, sound, unclosed⟩ := ledger.balance _ member
  have uncounted : closeCount conn (.called conn call :: journal) = closeCount conn journal := by
    cases call with
    | close => exact absurd rfl use
    | _ => simp [closeCount, Event.closes]
  have same_init : InitFailed conn (.called conn call :: journal) ↔ InitFailed conn journal := by
    simp [InitFailed]
  have still : Connected conn (.called conn call :: journal) := List.mem_cons_of_mem _ connected
  rw [← List.singleton_append]
  refine ledger.append conn ?_ (List.pairwise_singleton _ _) unclosed (Nat.le_refl n)
    (ledger.numbered_of_account member) (fun _ _ => Iff.rfl) ?_ ?_ ledger.single
  · intro other apart
    simp [Silent, Event.subject?, apart.symm]
  · intro a there own
    rw [List.singleton_append, uncounted, same_init, ← own]
    exact ⟨own ▸ still, (ledger.balance a there).2⟩
  · exact ⟨still, Or.inr ⟨(conn, false), member, rfl⟩⟩

/-- The connection of an account that is not closed is closed. -/
theorem close {before after : List (Nat × Bool)}
    (ledger : Ledger n (before ++ (conn, false) :: after) journal) (closing : Closing conn events) :
    Ledger n (before ++ (conn, true) :: after) (events ++ journal) := by
  have member : (conn, false) ∈ before ++ (conn, false) :: after := by simp
  obtain ⟨connected, sound, unclosed⟩ := ledger.balance _ member
  have symmetric {a b : Nat × Bool} (both : a.1 = b.1 → a.2 = true ∧ b.2 = true)
      (same : b.1 = a.1) : b.2 = true ∧ a.2 = true := (both same.symm).symm
  have single := List.pairwise_cons.mp ((List.pairwise_middle symmetric).mp ledger.single)
  have alone : ∀ a ∈ before ++ after, a.1 ≠ conn := by
    intro a there own
    cases (single.1 a there own.symm).1
  have own {a : Nat × Bool} (there : a ∈ before ++ (conn, true) :: after) (same : a.1 = conn) :
      a = (conn, true) := by
    rcases List.mem_append.mp there with early | late
    · exact absurd same (alone a (List.mem_append_left _ early))
    · rcases List.mem_cons.mp late with rfl | late
      · rfl
      · exact absurd same (alone a (List.mem_append_right _ late))
  have still : Connected conn (events ++ journal) := connected_append.mpr (Or.inr connected)
  refine ledger.append conn (fun _ => closing.about) closing.orderly unclosed
    (Nat.le_refl n) (ledger.numbered_of_account member) ?_ ?_ ?_ ?_
  · intro a apart
    have different (closed : Bool) : a ≠ (conn, closed) := fun same => apart (by rw [same])
    simp [different]
  · intro a there same
    rw [own there same, initFailed_append, or_iff_right closing.not_initFailed, closeCount_append,
      closing.closeCount, unclosed]
    exact ⟨still, sound, rfl⟩
  · exact ⟨still, Or.inr ⟨(conn, true), by simp, rfl⟩⟩
  · refine (List.pairwise_middle symmetric).mpr (List.pairwise_cons.mpr ⟨?_, single.2⟩)
    intro a there same
    exact absurd same.symm (alone a there)

/-- A new connection comes about and gets an account. -/
theorem opens (ledger : Ledger n accounts journal) (connecting : Connecting n events) :
    Ledger (n + 1) (accounts ++ [(n, false)]) (events ++ journal) := by
  have fresh := ledger.numbered n (Nat.le_refl n)
  have unknown {a : Nat × Bool} (there : a ∈ accounts) : a.1 ≠ n :=
    Nat.ne_of_lt (ledger.numbered_of_account there)
  have connected : Connected n (events ++ journal) :=
    connected_append.mpr (Or.inl connecting.connected)
  refine ledger.append n (fun _ => connecting.about) connecting.orderly fresh.closeCount
    (Nat.le_succ n) (Nat.lt_succ_self n) ?_ ?_ ?_ ?_
  · intro a apart
    have different : a ≠ (n, false) := fun same => apart (by rw [same])
    simp [different]
  · intro a there own
    rcases List.mem_append.mp there with old | new
    · exact absurd own (unknown old)
    · rw [List.mem_singleton.mp new, initFailed_append, closeCount_append, connecting.closeCount,
        fresh.closeCount]
      exact ⟨connected, not_or.mpr ⟨connecting.not_initFailed, fresh.not_initFailed⟩, rfl⟩
  · exact ⟨connected, Or.inr ⟨(n, false), by simp, rfl⟩⟩
  · refine List.pairwise_append.mpr ⟨ledger.single, List.pairwise_singleton _ _, ?_⟩
    intro a there b new same
    rw [List.mem_singleton.mp new] at same
    exact absurd same (unknown there)

/-- A connection that fails gets no account. -/
theorem fails (ledger : Ledger n accounts journal) (failing : Failing n events) :
    Ledger (n + 1) accounts (events ++ journal) := by
  rcases failing.cases with silent | ⟨about, orderly, connected, failed, once⟩
  · exact ledger.note events silent (Nat.le_succ n)
  have fresh := ledger.numbered n (Nat.le_refl n)
  refine ledger.append n about orderly fresh.closeCount (Nat.le_succ n)
    (Nat.lt_succ_self n) (fun _ _ => Iff.rfl) ?_ ?_ ledger.single
  · intro a there own
    exact absurd own (Nat.ne_of_lt (ledger.numbered_of_account there))
  · refine ⟨connected_append.mpr (Or.inl connected), Or.inl ?_⟩
    rw [closeCount_append, once, fresh.closeCount]
    exact ⟨initFailed_append.mpr (Or.inl failed), rfl⟩

/-- A second account of a connection that is closed. -/
theorem copies (ledger : Ledger n accounts journal) (member : (conn, true) ∈ accounts) :
    Ledger n (accounts ++ [(conn, true)]) journal := by
  refine ⟨ledger.numbered, ?_, ?_, ledger.unconnected, ?_, ledger.orderly⟩
  · intro a there
    rcases List.mem_append.mp there with old | new
    · exact ledger.balance a old
    · rw [List.mem_singleton.mp new]
      exact ledger.balance _ member
  · intro other connected
    refine (ledger.covered other connected).imp_right fun found => ?_
    obtain ⟨a, there, own⟩ := found
    exact ⟨a, List.mem_append_left _ there, own⟩
  · refine List.pairwise_append.mpr ⟨ledger.single, List.pairwise_singleton _ _, ?_⟩
    intro a there b new same
    rw [List.mem_singleton.mp new] at same ⊢
    obtain ⟨before, after, split⟩ := List.append_of_mem member
    have single := ledger.single
    rw [split] at there single
    obtain ⟨-, late, across⟩ := List.pairwise_append.mp single
    rcases List.mem_append.mp there with early | late'
    · exact across a early _ List.mem_cons_self same
    · rcases List.mem_cons.mp late' with rfl | later
      · exact ⟨rfl, rfl⟩
      · exact ((List.pairwise_cons.mp late).1 a later same.symm).symm

end Ledger

end ProducerPool
