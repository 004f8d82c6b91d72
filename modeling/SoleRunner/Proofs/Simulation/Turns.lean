import SoleRunner.Proofs.Simulation.Beats

/-!
# Proofs/Simulation/Turns — a turn is a row of beats

A thread that has its turn goes through the same steps as in beats, without interruption: its call, its
wait if that returns at once, and the rounds up to its next point.  So a turn leads where a row of beats
of its thread leads (`Machine.beats_of_turn`), and a run where some row of beats leads
(`Machine.beats_of_run`).
-/

namespace SoleRunner.Simulation

variable {σ π α : Type} {w w' : World σ π} {me : ThreadId} {c c' : Cursor} {x x' : Worker}
  {i : Nat}

namespace World

theorem pointOf_of_some (h : w.workers[i]? = some x) : w.pointOf i =
    match x.stage with
    | .due p => some p
    | .asleep => if w.ledger.hasPermit (.ofIndex i) then some .wake else none
    | _ => none := by
  obtain ⟨c, stage⟩ := x
  rw [pointOf, h]
  cases stage <;> rfl

/-- Whoever waits for its turn is one of the threads. -/
theorem exists_of_pointOf {p : Point} (hp : w.pointOf i = some p) : ∃ x, w.workers[i]? = some x := by
  cases hx : w.workers[i]? with
  | none =>
    rw [pointOf, hx] at hp
    nomatch hp
  | some x => exact ⟨x, rfl⟩

end World

namespace Machine

variable {machine : Machine σ π}

/-! ## Beats that play what a thread does -/

/-- Beats of thread `i` alone lead from `w` to where `r` says: to the same world with the same worker, or
into the same fault. -/
def Plays (machine : Machine σ π) (i : Nat) (w : World σ π) :
    EStateM.Result Fault (World σ π) Worker → Prop
  | .ok x w' => ∃ k, machine.beats (List.replicate k i) w = .ok () (w'.withWorker i x)
  | .error e _ => ∃ k w', machine.beats (List.replicate k i) w = .error e w'

/-- No beat at all. -/
theorem plays_nothing (x : Worker) (w : World σ π) :
    machine.Plays i (w.withWorker i x) (.ok x w) := ⟨0, rfl⟩

/-- A first beat, and the rest. -/
theorem Plays.cons {v : World σ π} {r : EStateM.Result Fault (World σ π) Worker}
    (hbeat : machine.beat i w = .ok () v) (h : machine.Plays i v r) : machine.Plays i w r := by
  cases r with
  | ok x w' =>
    obtain ⟨k, hk⟩ := h
    exact ⟨k + 1, by rw [List.replicate_succ, beats_cons, hbeat]; exact hk⟩
  | error e w' =>
    obtain ⟨k, w'', hk⟩ := h
    exact ⟨k + 1, w'', by rw [List.replicate_succ, beats_cons, hbeat]; exact hk⟩

/-- What follows a step that succeeds is played after it. -/
theorem Plays.bind {f : RunStep σ π Worker} {g : Worker → RunStep σ π Worker} {v : World σ π}
    (hf : machine.Plays i v (f w))
    (hg : ∀ x w', f w = .ok x w' → machine.Plays i (w'.withWorker i x) (g x w')) :
    machine.Plays i v ((f >>= g) w) := by
  cases hr : f w with
  | error e w' =>
    have hbind : (f >>= g) w = .error e w' := by rw [bind_apply, hr]
    rw [hbind]
    rw [hr] at hf
    exact hf
  | ok x w' =>
    have hbind : (f >>= g) w = g x w' := by rw [bind_apply, hr]
    rw [hbind]
    rw [hr] at hf
    obtain ⟨k, hk⟩ := hf
    have happend (n : Nat) : machine.beats (List.replicate (k + n) i) v =
        machine.beats (List.replicate n i) (w'.withWorker i x) := by
      rw [← List.replicate_append_replicate, beats_append, hk]
    have hrest := hg x w' hr
    cases hgx : g x w' with
    | ok y w'' =>
      rw [hgx] at hrest
      obtain ⟨n, hn⟩ := hrest
      exact ⟨k + n, (happend n).trans hn⟩
    | error e w'' =>
      rw [hgx] at hrest
      obtain ⟨n, u, hn⟩ := hrest
      exact ⟨k + n, u, (happend n).trans hn⟩

theorem beat_withWorker (hi : i < w.workers.size) : machine.beat i (w.withWorker i x) =
    match machine.act (.ofIndex i) x (w.withWorker i x) with
    | .ok x' w' => .ok () (w'.withWorker i x')
    | .error e w' => .error e w' :=
  beat_of_some (World.workers_withWorker_self hi x)

theorem operate_withWorker (op : Op) (y : Worker) :
    machine.operate me op c (w.withWorker i y) =
      ((machine.operate me op c w).1, (machine.operate me op c w).2.withWorker i y) := by
  cases op <;> simp only [operate] <;> split <;> rfl

theorem round_withWorker (y : Worker) : machine.round me c (w.withWorker i y) =
    ((machine.round me c w).1, (machine.round me c w).2.withWorker i y) := by
  unfold round
  split
  next => rfl
  next op ops _ =>
    split
    next => exact operate_withWorker op y
    next =>
      simp only [decide, World.withWorker]
      cases (machine.policy c.owner w.ledger.schedulerState w.policyState).1 <;> rfl

/-- The beat of a thread that goes on is a round. -/
theorem beat_going (machine : Machine σ π) (c : Cursor) (hi : i < w.workers.size) :
    machine.beat i (w.withWorker i ⟨c, .going⟩) =
      .ok () ((machine.round (.ofIndex i) c w).2.withWorker i (machine.round (.ofIndex i) c w).1) := by
  rw [beat_withWorker hi]
  change EStateM.Result.ok () ((machine.round (.ofIndex i) c (w.withWorker i ⟨c, .going⟩)).2.withWorker i
    (machine.round (.ofIndex i) c (w.withWorker i ⟨c, .going⟩)).1) = _
  rw [round_withWorker, World.withWorker_withWorker]

/-! ## Running on -/

theorem size_operate (machine : Machine σ π) (me : ThreadId) (op : Op) (c : Cursor) (w : World σ π) :
    (machine.operate me op c w).2.workers.size = w.workers.size := by
  cases op <;> simp only [operate] <;> split <;> rfl

/-- An operation takes the thread past it, or to a guard. -/
theorem operate_going (op : Op) {c' : Cursor} {v : World σ π}
    (h : machine.operate me op c w = (⟨c', .going⟩, v)) : c' = c.advance := by
  cases op <;> simp only [operate] at h <;> split at h <;> cases h <;> rfl

theorem remaining_advance {op : Op} {ops : Program} (h : machine.remaining c = op :: ops) :
    machine.remaining c.advance = ops := by
  change ((machine.programs[c.owner.index]?.getD []).drop (c.pc + 1)) = ops
  rw [← List.drop_drop]
  exact congrArg (List.drop 1) h

/-- What running on makes of a thread after an operation: if it goes on, the rest is done. -/
def goOn (machine : Machine σ π) (me : ThreadId) (ops : Program) :
    Worker × World σ π → Worker × World σ π
  | (⟨c, .going⟩, w) => machine.advance me ops c w
  | stopped => stopped

/-- Running on through an operation before which no hook is due. -/
theorem advance_of_unhooked (op : Op) (ops : Program) (h : machine.unhooked c) :
    machine.advance me (op :: ops) c w = machine.goOn me ops (machine.operate me op c w) := by
  rw [advance]
  exact if_pos h

/-- After a decision no hook is due. -/
theorem unhooked_of_hooked (h : c.hooked = true) : machine.unhooked c := by
  simp [unhooked, atHook, h]

/-- A decision leaves the place in the program, and nothing is asked there twice. -/
theorem of_decide_some {c' : Cursor} {v : World σ π} {next : ThreadId}
    (h : machine.decide me c w = (some next, c', v)) :
    c'.hooked = true ∧ machine.remaining c' = machine.remaining c ∧ v.workers = w.workers := by
  unfold decide at h
  generalize machine.policy c.owner w.ledger.schedulerState w.policyState = asked at h
  obtain ⟨answer, s, p⟩ := asked
  cases answer with
  | none => nomatch h
  | some n =>
    cases h
    exact ⟨rfl, rfl, rfl⟩

/-- Running on through a decision. -/
theorem advance_of_decided {c' : Cursor} {v : World σ π} {next : ThreadId} (op : Op) (ops : Program)
    (h : machine.unhooked c = false) (hd : machine.decide me c w = (some next, c', v)) :
    machine.advance me (op :: ops) c w =
      if v.ledger.hookCalls next then (⟨c', .due .switch⟩, v)
      else machine.advance me (op :: ops) c' v := by
  rw [advance_of_unhooked op ops (unhooked_of_hooked (of_decide_some hd).1)]
  simp only [advance, h, Bool.false_eq_true, if_false, hd]
  rfl

/-- The beat of a thread after its decision. -/
theorem beat_decided {next : ThreadId} (hi : i < w.workers.size) :
    machine.beat i (w.withWorker i ⟨c, .decided next⟩) =
      .ok () (w.withWorker i ⟨c, if w.ledger.hookCalls next then .due .switch else .going⟩) := by
  rw [beat_withWorker hi]
  change EStateM.Result.ok () ((w.withWorker i ⟨c, .decided next⟩).withWorker i
    ⟨c, if w.ledger.hookCalls next then .due .switch else .going⟩) = _
  rw [World.withWorker_withWorker]

/-- **Running on is a row of rounds.** -/
theorem plays_advance {ops : Program} (hi : i < w.workers.size) (hops : machine.remaining c = ops) :
    machine.Plays i (w.withWorker i ⟨c, .going⟩)
      (.ok (machine.advance (.ofIndex i) ops c w).1 (machine.advance (.ofIndex i) ops c w).2) := by
  induction ops generalizing c w with
  | nil =>
    have hbeat := beat_going machine c hi
    rw [round, hops] at hbeat
    exact .cons hbeat (plays_nothing _ _)
  | cons op ops ih =>
    have hact {c : Cursor} {w : World σ π} (hi : i < w.workers.size)
        (hops : machine.remaining c = op :: ops) (hhook : machine.unhooked c) :
        machine.Plays i (w.withWorker i ⟨c, .going⟩)
          (.ok (machine.advance (.ofIndex i) (op :: ops) c w).1
            (machine.advance (.ofIndex i) (op :: ops) c w).2) := by
      have hbeat := beat_going machine c hi
      simp only [round, hops, hhook, if_true] at hbeat
      refine .cons hbeat ?_
      rw [advance_of_unhooked op ops hhook]
      have hsize := size_operate machine (.ofIndex i) op c w
      generalize hr : machine.operate (.ofIndex i) op c w = r at hsize
      obtain ⟨⟨c', stage⟩, v⟩ := r
      cases stage with
      | going =>
        cases operate_going op hr
        exact ih (hsize ▸ hi) (remaining_advance hops)
      | _ => exact plays_nothing _ _
    cases hhook : machine.unhooked c with
    | true => exact hact hi hops hhook
    | false =>
      have hbeat := beat_going machine c hi
      simp only [round, hops, hhook, Bool.false_eq_true, if_false] at hbeat
      rcases hd : machine.decide (.ofIndex i) c w with ⟨_ | next, c', v⟩
      · simp only [hd] at hbeat
        simp only [advance, hhook, Bool.false_eq_true, if_false, hd]
        exact .cons hbeat (plays_nothing _ _)
      · simp only [hd] at hbeat
        obtain ⟨hhooked, hops', hworkers⟩ := of_decide_some hd
        have hi' : i < v.workers.size := hworkers ▸ hi
        refine .cons hbeat (.cons (beat_decided hi') ?_)
        rw [advance_of_decided op ops hhook hd]
        cases v.ledger.hookCalls next with
        | true => exact plays_nothing _ _
        | false => exact hact hi' (hops'.trans hops) (unhooked_of_hooked hhooked)

/-! ## One turn -/

/-- What a call leads to, the beats after it play. -/
theorem plays_settle (hi : i < w.workers.size) (x : Worker) :
    machine.Plays i (w.withWorker i x) (machine.settle (.ofIndex i) x w) := by
  unfold settle
  split
  next hgoing =>
    obtain ⟨c, stage⟩ := x
    cases hgoing
    exact plays_advance hi rfl
  next => exact plays_nothing x w

/-- What a thread does in one beat, one beat plays. -/
theorem plays_act (machine : Machine σ π) (hx : w.workers[i]? = some x) :
    machine.Plays i w (machine.act (.ofIndex i) x w) := by
  have hone : machine.beats (List.replicate 1 i) w = machine.beat i w := by
    rw [List.replicate_one, beats_cons]
    cases machine.beat i w <;> rfl
  rw [beat_of_some hx] at hone
  cases hr : machine.act (.ofIndex i) x w with
  | ok x' w' => exact ⟨1, by rw [hone, hr]⟩
  | error e w' => exact ⟨1, w', by rw [hone, hr]⟩

/-- Where thread `i` was before does not matter to what its section leaves. -/
theorem plays_answered {v : World σ π} {f : α → Worker}
    {r : EStateM.Result Fault (Ledger Cursor σ) α} :
    machine.Plays i v ((w.withWorker i x).answered f r) ↔ machine.Plays i v (w.answered f r) := by
  cases r with
  | error e m => exact .rfl
  | ok a m =>
    change (∃ k, _ = EStateM.Result.ok () (((w.withLedger m).withWorker i x).withWorker i (f a))) ↔ _
    rw [World.withWorker_withWorker]
    exact .rfl

/-- The beat of a thread that sleeps, where there is a permit for it. -/
theorem beat_asleep (machine : Machine σ π) (hi : i < w.workers.size)
    (hpermit : w.ledger.hasPermit (.ofIndex i) = true) (c : Cursor) :
    machine.beat i (w.withWorker i ⟨c, .asleep⟩) =
      .ok () ((w.withLedger (w.ledger.woken (.ofIndex i))).withWorker i ⟨c, .awake⟩) := by
  rw [beat_withWorker hi]
  change EStateM.Result.ok () (((w.withLedger (w.ledger.woken (.ofIndex i))).withWorker i _).withWorker i
    ⟨c, if w.ledger.hasPermit (.ofIndex i) then .awake else .asleep⟩) = _
  rw [World.withWorker_withWorker, hpermit]
  rfl

/-- Once its wait has returned, a thread looks again in one beat. -/
theorem plays_woken (machine : Machine σ π) (hi : i < w.workers.size)
    (hpermit : w.ledger.hasPermit (.ofIndex i) = true) (c : Cursor) :
    machine.Plays i ((w.withLedger (w.ledger.woken (.ofIndex i))).withWorker i ⟨c, .awake⟩)
      (machine.call (.ofIndex i) c .wake w) := by
  rw [call_wake, if_pos hpermit]
  have hlook := plays_act machine
    (World.workers_withWorker_self (w := w.withLedger (w.ledger.woken (.ofIndex i))) hi ⟨c, .awake⟩)
  rw [act, answer_apply] at hlook
  exact plays_answered.mp hlook

/-- A wait that returns, and what follows it, are two beats. -/
theorem plays_wake (machine : Machine σ π) (hi : i < w.workers.size) (c : Cursor) :
    machine.Plays i (w.withWorker i ⟨c, .asleep⟩) (machine.call (.ofIndex i) c .wake w) := by
  cases hpermit : w.ledger.hasPermit (.ofIndex i) with
  | false =>
    rw [call_wake, hpermit]
    exact plays_nothing _ _
  | true => exact .cons (beat_asleep machine hi hpermit c) (plays_woken machine hi hpermit c)

theorem workers_of_call {p : Point} (h : machine.call me c p w = .ok x w') :
    w'.workers = w.workers := by
  cases p with
  | start =>
    obtain ⟨_, _, -, -, rfl⟩ := World.of_answered (call_start ▸ h)
    rfl
  | arrival =>
    obtain ⟨_, _, -, -, rfl⟩ := World.of_answered (call_arrival ▸ h)
    rfl
  | departure =>
    obtain ⟨_, _, -, -, rfl⟩ := World.of_answered (call_departure ▸ h)
    rfl
  | switch =>
    obtain ⟨_, _, -, -, rfl⟩ := World.of_answered (call_switch ▸ h)
    rfl
  | finish =>
    obtain ⟨entry, hcall⟩ := call_finish machine me c w
    rw [hcall] at h
    split at h
    next =>
      cases h
      rfl
    next => nomatch h
  | wake =>
    rw [call_wake] at h
    split at h
    next =>
      obtain ⟨_, _, -, -, rfl⟩ := World.of_answered h
      rfl
    next =>
      cases h
      rfl

/-- What a thread does in its turn after its call. -/
def afterCall (machine : Machine σ π) (me : ThreadId) (p : Point) (x : Worker) : RunStep σ π Worker :=
  if p = .arrival ∧ x.stage = .asleep then do machine.settle me (← machine.call me x.cursor .wake)
  else machine.settle me x

theorem pass_eq (machine : Machine σ π) (me : ThreadId) (c : Cursor) (p : Point) :
    machine.pass me c p = machine.call me c p >>= machine.afterCall me p := rfl

theorem plays_afterCall (machine : Machine σ π) (hi : i < w.workers.size) (p : Point) (x : Worker) :
    machine.Plays i (w.withWorker i x) (machine.afterCall (.ofIndex i) p x w) := by
  unfold afterCall
  by_cases hasleep : p = .arrival ∧ x.stage = .asleep
  · rw [if_pos hasleep]
    obtain ⟨d, stage⟩ := x
    cases hasleep.2
    refine Plays.bind (plays_wake machine hi d) fun x v hr => plays_settle ?_ x
    exact (congrArg Array.size (workers_of_call hr)).symm ▸ hi
  · rw [if_neg hasleep]
    exact plays_settle hi x

theorem plays_pass {p : Point} (hx : w.workers[i]? = some ⟨c, .due p⟩) :
    machine.Plays i w (machine.pass (.ofIndex i) c p w) := by
  have hi : i < w.workers.size := (Array.getElem?_eq_some_iff.mp hx).1
  rw [pass_eq]
  refine Plays.bind (plays_act machine hx) fun x w' hr => plays_afterCall machine ?_ p x
  exact (congrArg Array.size (workers_of_call hr)).symm ▸ hi

/-! ## Turns and runs -/

theorem turn_of_pointOf {p : Point} (hx : w.workers[i]? = some x) (hp : w.pointOf i = some p) :
    machine.turn i w =
      match machine.pass (.ofIndex i) x.cursor p w with
      | .ok x' w' => .ok () (w'.withWorker i x')
      | .error e w' => .error e w' := by
  simp only [turn, bind_apply, get_apply, hx, hp]
  cases machine.pass (.ofIndex i) x.cursor p w <;> rfl

/-- The turn of a thread that does not wait for one is nothing. -/
theorem turn_of_not_pointOf (hp : w.pointOf i = none) : machine.turn i w = .ok () w := by
  simp only [turn, bind_apply, get_apply, hp]
  cases w.workers[i]? <;> rfl

/-- What a thread does in its turn, beats of it play. -/
theorem plays_turn (machine : Machine σ π) {p : Point} (hx : w.workers[i]? = some x)
    (hp : w.pointOf i = some p) : machine.Plays i w (machine.pass (.ofIndex i) x.cursor p w) := by
  have hi : i < w.workers.size := (Array.getElem?_eq_some_iff.mp hx).1
  rw [World.pointOf_of_some hx] at hp
  obtain ⟨c, stage⟩ := x
  cases stage with
  | due q =>
    cases hp
    exact plays_pass hx
  | asleep =>
    change (if w.ledger.hasPermit (.ofIndex i) then some Point.wake else none) = some p at hp
    split at hp
    next =>
      cases hp
      have hwake := plays_wake machine hi c
      rw [World.withWorker_self hx] at hwake
      refine Plays.bind hwake fun x w' hr => plays_afterCall machine ?_ .wake x
      exact (congrArg Array.size (workers_of_call hr)).symm ▸ hi
    next => nomatch hp
  | going => nomatch hp
  | decided => nomatch hp
  | awake => nomatch hp
  | ended => nomatch hp
  | crashed => nomatch hp

/-- **A turn is a row of beats** of its thread: a turn that succeeds leads to the same world, and one that
fails, into the same fault. -/
theorem beats_of_turn (machine : Machine σ π) (i : Nat) (w : World σ π) : ∃ k,
    (∃ w', machine.turn i w = .ok () w' ∧ machine.beats (List.replicate k i) w = .ok () w') ∨
    ∃ e w' w'', machine.turn i w = .error e w' ∧
      machine.beats (List.replicate k i) w = .error e w'' := by
  cases hp : w.pointOf i with
  | none => exact ⟨0, .inl ⟨w, turn_of_not_pointOf hp, rfl⟩⟩
  | some p =>
    obtain ⟨x, hx⟩ := World.exists_of_pointOf hp
    have hplays := plays_turn machine hx hp
    rw [turn_of_pointOf hx hp]
    cases hr : machine.pass (.ofIndex i) x.cursor p w with
    | ok x' w' =>
      rw [hr] at hplays
      obtain ⟨k, hk⟩ := hplays
      exact ⟨k, .inl ⟨_, rfl, hk⟩⟩
    | error e w' =>
      rw [hr] at hplays
      obtain ⟨k, w'', hk⟩ := hplays
      exact ⟨k, .inr ⟨e, w', w'', rfl, hk⟩⟩

/-- **A turn begins with a beat**: with the call of its point, or with the end of a wait. -/
theorem first_beat_of_turn {p : Point} (hp : w.pointOf i = some p) (h : machine.turn i w = .ok () w') :
    ∃ v k, machine.beat i w = .ok () v ∧ machine.beats (List.replicate k i) v = .ok () w' := by
  obtain ⟨⟨c, stage⟩, hx⟩ := World.exists_of_pointOf hp
  have hi := (Array.getElem?_eq_some_iff.mp hx).1
  rw [turn_of_pointOf hx hp, pass_eq, bind_apply] at h
  rw [World.pointOf_of_some hx] at hp
  have hrest {x : Worker} {v u : World σ π} (hcall : machine.call (.ofIndex i) c p w = .ok x v)
      (hplays : machine.Plays i u (machine.call (.ofIndex i) c p w)) :
      ∃ k, machine.beats (List.replicate k i) u = .ok () w' := by
    have hplays' := Plays.bind (g := machine.afterCall (.ofIndex i) p) hplays fun x v hr =>
      plays_afterCall machine ((congrArg Array.size (workers_of_call hr)).symm ▸ hi) p x
    rw [bind_apply, hcall] at hplays'
    rw [hcall] at h
    dsimp only at h hplays'
    split at h
    next x' w'' hok =>
      cases h
      rw [hok] at hplays'
      exact hplays'
    next => nomatch h
  cases hcall : machine.call (.ofIndex i) c p w with
  | error e v => rw [hcall] at h; nomatch h
  | ok x v =>
    cases stage with
    | due q =>
      cases hp
      have hbeat : machine.beat i w = .ok () (v.withWorker i x) := by
        rw [beat_of_some hx, act, hcall]
      obtain ⟨k, hk⟩ := hrest hcall (u := v.withWorker i x) (hcall ▸ plays_nothing x v)
      exact ⟨_, k, hbeat, hk⟩
    | asleep =>
      change (if w.ledger.hasPermit (.ofIndex i) then some Point.wake else none) = some p at hp
      split at hp
      next hpermit =>
        cases hp
        have hbeat := beat_asleep machine hi hpermit c
        rw [World.withWorker_self hx] at hbeat
        obtain ⟨k, hk⟩ := hrest hcall (plays_woken machine hi hpermit c)
        exact ⟨_, k, hbeat, hk⟩
      next => nomatch hp
    | _ => nomatch hp

/-- **A run is a row of beats**: where no beat fails, no run does, and it ends where beats lead. -/
theorem beats_of_run (h : ∀ is, ∃ w', machine.beats is w = .ok () w') (n : Nat) (picks : List Nat) :
    (machine.run n picks w).fault = none ∧
      ∃ is, machine.beats is w = .ok () (machine.run n picks w).world := by
  induction n generalizing picks w with
  | zero => exact ⟨rfl, [], rfl⟩
  | succ n ih =>
    unfold run
    dsimp only
    split
    next => exact ⟨rfl, [], rfl⟩
    next i _ =>
      obtain ⟨k, ⟨w', hturn, hbeats⟩ | ⟨e, w', w'', -, hbeats⟩⟩ := beats_of_turn machine i w
      · have hrest (is : List Nat) : ∃ v, machine.beats is w' = .ok () v := by
          obtain ⟨v, hv⟩ := h (List.replicate k i ++ is)
          rw [beats_append, hbeats] at hv
          exact ⟨v, hv⟩
        obtain ⟨hfault, is, his⟩ := ih hrest picks.tail
        simp only [hturn]
        refine ⟨hfault, List.replicate k i ++ is, ?_⟩
        rw [beats_append, hbeats]
        exact his
      · obtain ⟨v, hv⟩ := h (List.replicate k i)
        rw [hbeats] at hv
        nomatch hv

end Machine

end SoleRunner.Simulation
