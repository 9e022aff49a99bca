import TensorCalculus.Proofs.Outcome
import TensorCalculus.Proofs.Usage.Disciplines
import TensorCalculus.Store

/-!
# Histories of guarded tensors

A guarded tensor is asked for uses, to be given up, and whether it can be used. What has been
answered since it was guarded is its history. The guard always reflects the history, and from this
it follows that the history keeps to the discipline: what may be used once is not used twice, nor
after it has been given up, what must be used is not given up before, and what is shared can always
be used. -/

namespace TensorCalculus

open TensorCalculus.Outcome

namespace Action

variable {β γ : Type} {store : Store}

/-- What an action comes to, and the store that it leaves. -/
def outcome (action : Action β) (store : Store) : Except Fault β × Store :=
  action.run.run store

theorem outcome_bind (action : Action β) (f : β → Action γ) (store : Store) :
    (action >>= f).outcome store =
      match action.outcome store with
      | (.ok x, next) => (f x).outcome next
      | (.error fault, next) => (.error fault, next) := by
  rcases ran : action.outcome store with ⟨_ | x, next⟩
  all_goals
    unfold outcome at ran ⊢
    rw [ExceptT.run_bind, StateT.run_bind, ran]
    rfl

@[simp]
theorem outcome_pure (x : β) : (pure x : Action β).outcome store = (.ok x, store) := rfl

@[simp]
theorem outcome_ofExcept (outcome : Except Fault β) :
    (ofExcept outcome).outcome store = (outcome, store) := by
  cases outcome <;> rfl

@[simp]
theorem outcome_read (ref : Ref) :
    (read ref).outcome store = (.ok (store.objects.getD ref (.plain "NoneType" .null)), store) :=
      rfl

@[simp]
theorem outcome_alloc (object : Object) :
    (alloc object).outcome store = (.ok store.objects.size,
      { store with objects := store.objects.push object }) := rfl

@[simp]
theorem outcome_write (ref : Ref) (object : Object) :
    (write ref object).outcome store =
      (.ok (), { store with objects := store.objects.setIfInBounds ref object }) := rfl

theorem outcome_read_of_some {ref : Ref} {object : Object}
    (found : store.objects[ref]? = some object) :
    (read ref).outcome store = (.ok object, store) := by
  rw [outcome_read, Array.getD_eq_getD_getElem?, found, Option.getD_some]

theorem outcome_tensor {ref : Ref} {t : Tensor Float}
    (found : store.objects[ref]? = some (.tensor t)) :
    (tensor ref).outcome store = (.ok t, store) := by
  simp only [tensor, tensorAs, operand, outcome_bind, outcome_read_of_some found, outcome_pure]
  rfl

end Action

/-- Whether a store holds a guard, and the tensor that it guards. -/
structure Store.Holds (store : Store) (ref inner : Ref) (t : Tensor Float) (g : Guard) : Prop where
  guarded : store.objects[ref]? = some (.guarded inner g)
  tensor : store.objects[inner]? = some (.tensor t)

namespace Store.Holds

variable {store : Store} {ref inner : Ref} {t : Tensor Float} {g : Guard}

theorem lt_size (holds : store.Holds ref inner t g) : ref < store.objects.size :=
  (Array.getElem?_eq_some_iff.1 holds.guarded).1

/-- The guard may be replaced by another one. -/
theorem write (holds : store.Holds ref inner t g) (next : Guard) :
    { store with objects := store.objects.setIfInBounds ref (.guarded inner next) }.Holds
      ref inner t next where
  guarded := by rw [Array.getElem?_setIfInBounds_self_of_lt holds.lt_size]
  tensor := by
    have differ : ref ≠ inner := by
      rintro rfl
      have same := holds.guarded.symm.trans holds.tensor
      cases same
    rw [Array.getElem?_setIfInBounds_ne differ, holds.tensor]

theorem push (holds : store.Holds ref inner t g) (object : Object) :
    { store with objects := store.objects.push object }.Holds ref inner t g where
  guarded := by rw [Array.getElem?_push, if_neg holds.lt_size.ne, holds.guarded]
  tensor := by
    have before : inner < store.objects.size := (Array.getElem?_eq_some_iff.1 holds.tensor).1
    rw [Array.getElem?_push, if_neg before.ne, holds.tensor]

/-- A use that is allowed hands something over and is counted. -/
theorem use_of_canUse (holds : store.Holds ref inner t g) (usable : g.canUse = true) :
    ∃ handed next, (Action.useGuarded ref).outcome store = (.ok handed, next) ∧
      next.Holds ref inner t g.counted.2 := by
  simp only [Action.useGuarded, Action.outcome_bind, Action.outcome_read_of_some holds.guarded,
    Action.outcome_tensor holds.tensor, Guard.use_of_canUse usable t.name, Action.outcome_ofExcept,
    Action.outcome_write]
  have written := holds.write g.counted.2
  cases g.counted.1 with
  | itself => exact ⟨_, _, rfl, written⟩
  | copy => exact ⟨_, _, rfl, written.push (.tensor t)⟩

/-- A use that is not allowed is refused, and nothing changes. -/
theorem use_of_not_canUse (holds : store.Holds ref inner t g) (unusable : g.canUse = false) :
    ∃ fault, (Action.useGuarded ref).outcome store = (.error fault, store) := by
  obtain ⟨cause, refused⟩ := Guard.use_of_not_canUse unusable t.name
  simp only [Action.useGuarded, Action.outcome_bind, Action.outcome_read_of_some holds.guarded,
    Action.outcome_tensor holds.tensor, refused, Action.outcome_ofExcept]
  exact ⟨_, rfl⟩

theorem discard_of_gives (holds : store.Holds ref inner t g)
    (gives : g.discipline = .linear → g.consumed = true) :
    ∃ next, (Action.discardGuarded ref).outcome store = (.ok (), next) ∧
      next.Holds ref inner t { g with consumed := true } := by
  simp only [Action.discardGuarded, Action.outcome_bind, Action.outcome_read_of_some holds.guarded,
    Action.outcome_tensor holds.tensor, Guard.discard_of_gives gives t.name,
    Action.outcome_ofExcept,
    Action.outcome_write]
  exact ⟨_, rfl, holds.write _⟩

theorem discard_of_keeps (holds : store.Holds ref inner t g)
    (keeps : g.discipline = .linear ∧ g.consumed = false) :
    ∃ fault, (Action.discardGuarded ref).outcome store = (.error fault, store) := by
  simp only [Action.discardGuarded, Action.outcome_bind, Action.outcome_read_of_some holds.guarded,
    Action.outcome_tensor holds.tensor, Guard.discard_of_keeps keeps t.name,
    Action.outcome_ofExcept]
  exact ⟨_, rfl⟩

theorem canUse_eq (holds : store.Holds ref inner t g) :
    (Action.canUseGuarded ref).outcome store = (.ok g.canUse, store) := by
  simp only [Action.canUseGuarded, Action.outcome_bind, Action.outcome_read_of_some holds.guarded,
    Action.outcome_pure]

theorem use_isOk_iff (holds : store.Holds ref inner t g) :
    (∃ handed, ((Action.useGuarded ref).outcome store).1 = .ok handed) ↔
      ((Action.canUseGuarded ref).outcome store).1 = .ok true := by
  rw [holds.canUse_eq]
  cases usable : g.canUse with
  | true =>
    obtain ⟨handed, next, outcome, -⟩ := holds.use_of_canUse usable
    simp [outcome]
  | false =>
    obtain ⟨fault, outcome⟩ := holds.use_of_not_canUse usable
    simp [outcome]

theorem use_refused (holds : store.Holds ref inner t g) {fault : Fault}
    (refused : ((Action.useGuarded ref).outcome store).1 = .error fault) :
    ((Action.useGuarded ref).outcome store).2 = store := by
  cases usable : g.canUse with
  | true =>
    obtain ⟨handed, next, outcome, -⟩ := holds.use_of_canUse usable
    simp [outcome] at refused
  | false =>
    obtain ⟨fault, outcome⟩ := holds.use_of_not_canUse usable
    rw [outcome]

theorem discard_refused (holds : store.Holds ref inner t g) {fault : Fault}
    (refused : ((Action.discardGuarded ref).outcome store).1 = .error fault) :
    ((Action.discardGuarded ref).outcome store).2 = store := by
  by_cases gives : g.discipline = .linear → g.consumed = true
  · obtain ⟨next, outcome, -⟩ := holds.discard_of_gives gives
    simp [outcome] at refused
  · obtain ⟨fault, outcome⟩ := holds.discard_of_keeps (by simpa using gives)
    rw [outcome]

end Store.Holds

namespace Guard

/-- What can be asked of a guarded tensor. -/
inductive Question where
  | use
  | discard
  | canUse
  deriving DecidableEq

inductive Reply where
  | handed (ref : Ref)
  | done
  | verdict (usable : Bool)

abbrev Exchange := Question × Except Fault Reply

/-- Whether the tensor has been handed over. -/
def Exchange.used : Exchange → Bool
  | (.use, .ok _) => true
  | _ => false

/-- Whether the tensor has been given up. -/
def Exchange.discarded : Exchange → Bool
  | (.discard, .ok _) => true
  | _ => false

end Guard

open Guard

def Action.ask (ref : Ref) : Question → Action Reply
  | .use => do return .handed (← useGuarded ref)
  | .discard => do
    discardGuarded ref
    return .done
  | .canUse => do return .verdict (← canUseGuarded ref)

/-- A store and what has been asked of one of its guards, with the replies. -/
structure Guard.History where
  store : Store
  transcript : List Exchange := []

def Guard.History.next (ref : Ref) (h : History) (question : Question) : History :=
  let (reply, store) := (Action.ask ref question).outcome h.store
  { store, transcript := h.transcript ++ [(question, reply)] }

/-- Whether a history keeps to a discipline. -/
structure Discipline.Permits (d : Discipline) (transcript : List Exchange) : Prop where
  used_once : d ≠ .bang → transcript.countP Exchange.used ≤ 1
  unused_behind_discard : d ≠ .bang → transcript.Pairwise fun e e' => e.discarded → ¬ e'.used
  used_before_discard : d = .linear → ∀ before e, before ++ [e] <+: transcript → e.discarded →
    ∃ e' ∈ before, e'.used
  always_usable : d = .bang → ∀ e ∈ transcript, e.1 = .use → e.used

/-- Whether a guard tells of its history: its uses are counted, and it is consumed when it has been
given up, or when the tensor itself has been handed over. -/
structure Guard.Reflects (d : Discipline) (g : Guard) (transcript : List Exchange) : Prop where
  discipline_eq : g.discipline = d
  limit_eq : g.limit = d.limit
  uses_eq : g.uses = transcript.countP Exchange.used
  consumed_iff : g.consumed ↔ (∃ e ∈ transcript, e.discarded) ∨
    (d.consumes ∧ ∃ e ∈ transcript, e.used)

section Exchanges

variable {d : Discipline} {g : Guard} {transcript : List Exchange} {e : Exchange}

/-- One more exchange keeps to the discipline when it does so behind all that came before. -/
theorem Discipline.Permits.append_single (permits : d.Permits transcript)
    (once : d ≠ .bang → e.used → ∀ e' ∈ transcript, ¬ e'.used ∧ ¬ e'.discarded)
    (before : d = .linear → e.discarded → ∃ e' ∈ transcript, e'.used)
    (always : d = .bang → e.1 = .use → e.used) :
    d.Permits (transcript ++ [e]) where
  used_once proper := by
    rw [List.countP_append, List.countP_singleton]
    split
    case isTrue used =>
      have unused : transcript.countP Exchange.used = 0 :=
        List.countP_eq_zero.2 fun e' he' => (once proper used e' he').1
      omega
    case isFalse => exact permits.used_once proper
  unused_behind_discard proper := by
    rw [List.pairwise_append]
    refine ⟨permits.unused_behind_discard proper, List.pairwise_singleton _ _, ?_⟩
    intro e' he' last same discarded used
    obtain rfl := List.mem_singleton.1 same
    exact (once proper used e' he').2 discarded
  used_before_discard linear front e' prefixed discarded := by
    rw [List.prefix_concat_iff] at prefixed
    rcases prefixed with whole | earlier
    · obtain ⟨rfl, same⟩ := List.append_inj' whole rfl
      obtain rfl := List.singleton_inj.1 same
      exact before linear discarded
    · exact permits.used_before_discard linear front e' earlier discarded
  always_usable bang := by
    rw [List.forall_mem_append, List.forall_mem_singleton]
    exact ⟨permits.always_usable bang, always bang⟩

/-- An exchange that hands nothing over and gives nothing up leaves no trace in the guard. -/
theorem Guard.Reflects.append_idle (reflects : g.Reflects d transcript) (unused : ¬ e.used)
    (kept : ¬ e.discarded) : g.Reflects d (transcript ++ [e]) where
  discipline_eq := reflects.discipline_eq
  limit_eq := reflects.limit_eq
  uses_eq := by simp [List.countP_append, unused, reflects.uses_eq]
  consumed_iff := by simp [reflects.consumed_iff, unused, kept]

theorem Guard.Reflects.append_used (reflects : g.Reflects d transcript) (used : e.used)
    (kept : ¬ e.discarded) : g.counted.2.Reflects d (transcript ++ [e]) := by
  rw [counted_eq]
  constructor
  · exact reflects.discipline_eq
  · exact reflects.limit_eq
  · simp [List.countP_append, used, reflects.uses_eq]
  · have discards : (∃ e' ∈ transcript ++ [e], e'.discarded) ↔
      ∃ e' ∈ transcript, e'.discarded := by simp [kept]
    have uses : ∃ e' ∈ transcript ++ [e], e'.used := ⟨e, by simp, used⟩
    rw [Bool.or_eq_true, reflects.consumed_iff, reflects.discipline_eq, discards, and_iff_left uses,
      or_assoc, or_iff_right_of_imp And.left]

theorem Guard.Reflects.append_discarded (reflects : g.Reflects d transcript) (unused : ¬ e.used)
    (discarded : e.discarded) :
    { g with consumed := true : Guard }.Reflects d (transcript ++ [e]) where
  discipline_eq := reflects.discipline_eq
  limit_eq := reflects.limit_eq
  uses_eq := by simp [List.countP_append, unused, reflects.uses_eq]
  consumed_iff := by simp [discarded]

/-- A guard whose tensor may be used once can be used only if nothing has been used or given up. -/
theorem Guard.Reflects.untouched (reflects : g.Reflects d transcript) (proper : d ≠ .bang)
    (usable : g.canUse = true) : ∀ e ∈ transcript, ¬ e.used ∧ ¬ e.discarded := by
  have single : g.limit = some 1 := by
    rw [reflects.limit_eq]
    cases d <;> first | rfl | exact absurd rfl proper
  have fresh : g.consumed = false ∧ g.uses < 1 := by
    simpa [canUse, exhausted, reflects.discipline_eq, proper, single] using usable
  have counted := reflects.uses_eq
  have unused : transcript.countP Exchange.used = 0 := by omega
  intro e he
  refine ⟨List.countP_eq_zero.1 unused e he, fun discarded => ?_⟩
  have consumed := reflects.consumed_iff.2 (.inl ⟨e, he, discarded⟩)
  rw [fresh.1] at consumed
  cases consumed

/-- A linear guard that is consumed has been used: before it is, it cannot be given up. -/
theorem Guard.Reflects.used_of_consumed (reflects : g.Reflects d transcript)
    (permits : d.Permits transcript) (linear : d = .linear) (consumed : g.consumed = true) :
    ∃ e ∈ transcript, e.used := by
  rcases reflects.consumed_iff.1 consumed with ⟨e, he, discarded⟩ | ⟨-, used⟩
  · obtain ⟨before, after, rfl⟩ := List.append_of_mem he
    have earlier : before ++ [e] <+: before ++ e :: after := by simp
    obtain ⟨e', he', used⟩ := permits.used_before_discard linear before e earlier discarded
    exact ⟨e', List.mem_append_left _ he', used⟩
  · exact used

end Exchanges

/-- What is known of a guard after a history: it reflects the history, which keeps to the
discipline. -/
structure Guard.History.Kept (d : Discipline) (ref inner : Ref) (t : Tensor Float) (h : History)
    (g : Guard) : Prop where
  holds : h.store.Holds ref inner t g
  reflects : g.Reflects d h.transcript
  permits : d.Permits h.transcript

namespace Guard.History.Kept

variable {d : Discipline} {ref inner : Ref} {t : Tensor Float} {h : History} {g : Guard}

/-- An exchange that hands nothing over and gives nothing up, and that changes no store. -/
theorem idle (kept : h.Kept d ref inner t g) {question : Question} {reply : Except Fault Reply}
    (unused : ¬ Exchange.used (question, reply)) (held : ¬ Exchange.discarded (question, reply))
    (always : d = .bang → question ≠ .use) :
    Kept d ref inner t { h with transcript := h.transcript ++ [(question, reply)] } g where
  holds := kept.holds
  reflects := kept.reflects.append_idle unused held
  permits :=
    kept.permits.append_single (fun _ used => absurd used unused) (fun _ discarded =>
      absurd discarded held) fun bang use => absurd use (always bang)

theorem use (kept : h.Kept d ref inner t g) : ∃ g', (h.next ref .use).Kept d ref inner t g' := by
  unfold History.next Action.ask
  rw [Action.outcome_bind]
  cases usable : g.canUse with
  | true =>
    obtain ⟨handed, next, outcome, holds⟩ := kept.holds.use_of_canUse usable
    rw [outcome]
    refine ⟨_, holds, kept.reflects.append_used rfl Bool.false_ne_true,
      kept.permits.append_single ?_ ?_ ?_⟩
    · exact fun proper _ => kept.reflects.untouched proper usable
    · exact fun _ discarded => absurd discarded Bool.false_ne_true
    · exact fun _ _ => rfl
  | false =>
    obtain ⟨fault, outcome⟩ := kept.holds.use_of_not_canUse usable
    rw [outcome]
    refine ⟨g, kept.idle Bool.false_ne_true Bool.false_ne_true fun bang _ => ?_⟩
    simp [canUse, kept.reflects.discipline_eq, bang] at usable

theorem discard (kept : h.Kept d ref inner t g) :
    ∃ g', (h.next ref .discard).Kept d ref inner t g' := by
  unfold History.next Action.ask
  rw [Action.outcome_bind]
  by_cases gives : g.discipline = .linear → g.consumed = true
  · obtain ⟨next, outcome, holds⟩ := kept.holds.discard_of_gives gives
    rw [outcome]
    refine ⟨_, holds, kept.reflects.append_discarded Bool.false_ne_true rfl,
      kept.permits.append_single ?_ ?_ ?_⟩
    · exact fun _ used => absurd used Bool.false_ne_true
    · exact fun linear _ => kept.reflects.used_of_consumed kept.permits linear
        (gives (kept.reflects.discipline_eq.trans linear))
    · exact fun _ use => absurd use (by simp)
  · have keeps : g.discipline = .linear ∧ g.consumed = false := by simpa using gives
    obtain ⟨fault, outcome⟩ := kept.holds.discard_of_keeps keeps
    rw [outcome]
    exact ⟨g, kept.idle Bool.false_ne_true Bool.false_ne_true (by simp)⟩

theorem canUse (kept : h.Kept d ref inner t g) : (h.next ref .canUse).Kept d ref inner t g := by
  unfold History.next Action.ask
  rw [Action.outcome_bind, kept.holds.canUse_eq]
  exact kept.idle Bool.false_ne_true Bool.false_ne_true (by simp)

theorem next (kept : h.Kept d ref inner t g) (question : Question) :
    ∃ g', (h.next ref question).Kept d ref inner t g' := by
  cases question with
  | use => exact kept.use
  | discard => exact kept.discard
  | canUse => exact ⟨g, kept.canUse⟩

theorem foldl (kept : h.Kept d ref inner t g) (questions : List Question) :
    ∃ g', (questions.foldl (History.next ref) h).Kept d ref inner t g' := by
  induction questions generalizing h g with
  | nil => exact ⟨g, kept⟩
  | cons question questions ih =>
    obtain ⟨g', kept'⟩ := kept.next question
    exact ih kept'

end Guard.History.Kept

theorem Discipline.ofName_name (d : Discipline) : ofName d.name = .ok d := by
  cases d <;> rfl

/-- Guarding a copy of a tensor begins a history. -/
theorem Action.guardCopy_begins {store : Store} {source : Ref} {t : Tensor Float}
    (found : store.objects[source]? = some (.tensor t)) (d : Discipline) :
    ∃ ref made inner, (guardCopy d.name source).outcome store = (.ok ref, made) ∧
      Guard.History.Kept d ref inner t { store := made } (Guard.new d) := by
  simp only [guardCopy, outcome_bind, outcome_tensor found, Discipline.ofName_name,
    outcome_ofExcept, outcome_alloc]
  refine ⟨_, _, store.objects.size, rfl, ⟨?_, ?_⟩, ⟨rfl, rfl, rfl, by simp [Guard.new]⟩, ?_⟩
  · exact Array.getElem?_push_size
  · rw [Array.getElem?_push, if_neg (by simp), Array.getElem?_push_size]
  · exact ⟨fun _ => Nat.zero_le 1, fun _ => .nil, by simp, by simp⟩

/-- Guarded tensors keep to their disciplines. Whatever state a guard is in, a use succeeds exactly
when it is said to be possible beforehand, and what is refused changes nothing. A tensor that is
guarded in one of the four ways, and then used, given up and asked about in any order, counts its
successful uses; it is not used twice or after it has been given up unless it is shared, it is used
before it is given up if it must be, and if it is shared it can always be used. -/
theorem guards_keep_discipline :
    (∀ (store : Store) (ref inner : Ref) (t : Tensor Float) (g : Guard), store.Holds ref inner t g →
      ((∃ handed, ((Action.useGuarded ref).outcome store).1 = .ok handed) ↔
        ((Action.canUseGuarded ref).outcome store).1 = .ok true) ∧
      (∀ fault, ((Action.useGuarded ref).outcome store).1 = .error fault →
        ((Action.useGuarded ref).outcome store).2 = store) ∧
      ∀ fault, ((Action.discardGuarded ref).outcome store).1 = .error fault →
        ((Action.discardGuarded ref).outcome store).2 = store) ∧
    ∀ (d : Discipline) (store : Store) (source : Ref) (t : Tensor Float),
      store.objects[source]? = some (.tensor t) →
      ∃ ref made, (Action.guardCopy d.name source).outcome store = (.ok ref, made) ∧
        ∀ (questions : List Question) (h : History),
          questions.foldl (History.next ref) { store := made } = h →
          ∃ inner g, h.store.Holds ref inner t g ∧ g.uses = h.transcript.countP Exchange.used ∧
            d.Permits h.transcript := by
  constructor
  · intro store ref inner t g holds
    exact ⟨holds.use_isOk_iff, fun _ => holds.use_refused, fun _ => holds.discard_refused⟩
  · intro d store source t found
    obtain ⟨ref, made, inner, outcome, begins⟩ := Action.guardCopy_begins found d
    refine ⟨ref, made, outcome, ?_⟩
    rintro questions h rfl
    obtain ⟨g, kept⟩ := begins.foldl questions
    exact ⟨inner, g, kept.holds, kept.reflects.uses_eq, kept.permits⟩

def ticket : Tensor Float := ⟨"Ticket", ["seat"], [2], #[1, 2], rfl, rfl⟩

/-- A tensor, and one branch of a choice that has been taken. -/
def shelf : Store where
  objects := #[.tensor ticket, .guarded 0 { discipline := .choice, uses := 1 }]

/-- A linear guard of the tensor, which is to be given up, used twice, and given up again. -/
def ticketHistory : History :=
  [.discard, .use, .use, .discard].foldl (History.next 3)
  { store := ((Action.guardCopy "linear" 0).outcome shelf).2 }

/-- The branch cannot be taken again. The linear guard is not given up at first, then used, not used
again, and given up in the end. -/
theorem guards_keep_discipline_ticket :
    shelf.Holds 1 0 ticket { discipline := .choice, uses := 1 } ∧
      (¬ ∃ handed, ((Action.useGuarded 1).outcome shelf).1 = .ok handed) ∧
      shelf.objects[0]? = some (.tensor ticket) ∧ ((Action.guardCopy "linear" 0).outcome shelf).1 =
        .ok 3 ∧
      ticketHistory.transcript.map (·.2.isOk) = [false, true, false, true] ∧
      (∃ inner g, ticketHistory.store.Holds 3 inner ticket g ∧ g.uses = 1) ∧
      Discipline.linear.Permits ticketHistory.transcript := by
  obtain ⟨states, histories⟩ := guards_keep_discipline
  have holds : shelf.Holds 1 0 ticket { discipline := .choice, uses := 1 } := ⟨rfl, rfl⟩
  have found : shelf.objects[0]? = some (.tensor ticket) := rfl
  obtain ⟨possible, -, -⟩ := states shelf 1 0 ticket _ holds
  have spent : ¬ ∃ handed, ((Action.useGuarded 1).outcome shelf).1 = .ok handed := by
    rw [possible]
    exact fun usable => Bool.false_ne_true (Except.ok.inj usable)
  obtain ⟨ref, made, guarded, kept⟩ := histories .linear shelf 0 ticket found
  obtain ⟨outcome, left⟩ := Prod.mk.inj guarded
  obtain rfl : 3 = ref := Except.ok.inj outcome
  obtain rfl : ((Action.guardCopy "linear" 0).outcome shelf).2 = made := left
  obtain ⟨inner, g, held, uses, permits⟩ := kept [.discard, .use, .use, .discard] ticketHistory rfl
  exact ⟨holds, spent, found, rfl, rfl, ⟨inner, g, held, uses.trans rfl⟩, permits⟩

end TensorCalculus
