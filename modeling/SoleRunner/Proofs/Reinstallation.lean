import Mathlib.Algebra.GroupWithZero.Nat
import SoleRunner.Proofs.Creation

/-!
# Proofs/Reinstallation — what a second attempt to install an arbiter is told

An attempt to install an arbiter claims two registers first and attaches the arbiter last, and what a
failing attempt has claimed stays claimed.  So no attempt after the first success changes whose handlers a
substrate has (`Setup.Draws`), but whether it is told so depends on everything that was ever claimed: the
simulated substrate tells it while two of its four registers are left, and from then on only that there
are no registers (`Arbiter.install_again`).
-/

namespace SoleRunner

/-- No register is in the simulated supply twice. -/
theorem Substrate.simulated_nodup {H : Type} : (simulated : Substrate H).supply.Nodup := by
  change ([⟨0⟩, ⟨1⟩, ⟨2⟩, ⟨3⟩] : List Register).Nodup
  decide

namespace Setup

variable {C σ α : Type} {s t u : Setup C σ} {arb : Arbiter C σ} {n k : Nat} {r : Register}
  {rest : List Register}

/-- What a step leaves behind, whether it succeeds or fails. -/
def left : EStateM.Result Fault (Setup C σ) α → Setup C σ
  | .ok _ s => s
  | .error _ s => s

/-- **`n` registers have been drawn** from the supply of `s`, or as many as there were, and `t` has the
handlers of `s` if there are any. -/
structure Draws (n : Nat) (s t : Setup C σ) : Prop where
  supply_eq : t.substrate.supply = s.substrate.supply.drop n
  kept : ∀ arb, s.substrate.handlers = some arb → t.substrate.handlers = some arb

theorem Draws.refl (s : Setup C σ) : s.Draws 0 s := ⟨rfl, fun _ => id⟩

theorem Draws.trans (h : s.Draws n t) (h' : t.Draws k u) : s.Draws (n + k) u where
  supply_eq := by rw [h'.supply_eq, h.supply_eq, List.drop_drop]
  kept arb hs := h'.kept arb (h.kept arb hs)

/-- Writing to the log draws nothing. -/
theorem Draws.logged {log : Array Log.Entry} (h : s.Draws n t) : s.Draws n { t with log } :=
  ⟨h.supply_eq, h.kept⟩

theorem Draws.of_logged {log : Array Log.Entry} (h : Draws n { s with log } t) : s.Draws n t :=
  ⟨h.supply_eq, h.kept⟩

/-! ## The steps -/

/-- The setup once `r` has been claimed, and `rest` is left. -/
def drawn (s : Setup C σ) (r : Register) (rest : List Register) : Setup C σ :=
  { s with substrate :=
      { s.substrate with supply := rest, claimed := s.substrate.claimed ++ [r] } }

theorem claim_of_nil (h : s.substrate.supply = []) : claim s = .error .registersExhausted s := by
  obtain ⟨⟨supply, claimed, handlers⟩, log⟩ := s
  cases h
  rfl

theorem claim_of_cons (h : s.substrate.supply = r :: rest) : claim s = .ok r (s.drawn r rest) := by
  obtain ⟨⟨supply, claimed, handlers⟩, log⟩ := s
  cases h
  rfl

/-- An empty supply stays empty. -/
theorem draws_of_nil (h : s.substrate.supply = []) : s.Draws 1 s := ⟨by rw [h]; rfl, fun _ => id⟩

theorem draws_drawn (h : s.substrate.supply = r :: rest) : s.Draws 1 (s.drawn r rest) :=
  ⟨by rw [h]; rfl, fun _ => id⟩

theorem draws_claim (s : Setup C σ) : s.Draws 1 (left (claim s)) := by
  cases h : s.substrate.supply with
  | nil => exact claim_of_nil h ▸ draws_of_nil h
  | cons r rest => exact claim_of_cons h ▸ draws_drawn h

theorem attach_of_attached (h : s.substrate.handlers = some arb) (other : Arbiter C σ) :
    attach other s = .error .alreadyInitialized s := by
  obtain ⟨⟨supply, claimed, handlers⟩, log⟩ := s
  cases h
  rfl

theorem draws_attach (arb : Arbiter C σ) (s : Setup C σ) : s.Draws 0 (left (attach arb s)) := by
  obtain ⟨⟨supply, claimed, handlers⟩, log⟩ := s
  cases handlers with
  | none => exact ⟨rfl, nofun⟩
  | some old => exact .refl _

end Setup

namespace Arbiter

open Setup

variable {C σ : Type} {scheduler : Scheduler C σ} {initial : σ} {config : Config} {s t : Setup C σ}
  {arb : Arbiter C σ} {a : Arbiter C σ × Ledger C σ}

/-! ## Creating -/

/-- **How an attempt to create an arbiter can end**, on setup `s`. -/
inductive Creates (config : Config) (s : Setup C σ) :
    EStateM.Result Fault (Setup C σ) (Arbiter C σ × Ledger C σ) → Prop
  | invalid {problem : Config.Problem} (hc : config.problem? = some problem) :
      Creates config s (.error (.invalidConfig problem) s)
  | exhausted {t : Setup C σ} (hc : config.problem? = none) (hs : s.substrate.supply.length < 2)
      (ht : s.Draws 2 t) : Creates config s (.error .registersExhausted t)
  /-- The substrate has handed out one register twice. -/
  | twice {t : Setup C σ} {r : Register} {rest : List Register} (hc : config.problem? = none)
      (hs : s.substrate.supply = r :: r :: rest) (ht : s.Draws 2 t) :
      Creates config s (.error (.broken .registersDiffer) t)
  | created {t : Setup C σ} {a : Arbiter C σ × Ledger C σ} (hc : config.problem? = none)
      (hs : 2 ≤ s.substrate.supply.length) (ht : s.Draws 2 t) : Creates config s (.ok a t)

/-- **An attempt to create an arbiter ends in one of the listed ways.** -/
theorem create_outcome (scheduler : Scheduler C σ) (initial : σ) (config : Config) (s : Setup C σ) :
    Creates config s (create scheduler initial config s) := by
  unfold create
  cases hc : config.problem? with
  | some problem => exact .invalid hc
  | none =>
    dsimp only
    cases hs : s.substrate.supply with
    | nil =>
      rw [bind_of_error (claim_of_nil hs)]
      exact .exhausted hc (by rw [hs]; decide) ((draws_of_nil hs).trans (draws_of_nil hs))
    | cons r rest =>
      rw [bind_of_ok (claim_of_cons hs)]
      have hone := draws_drawn hs
      cases rest with
      | nil =>
        rw [bind_of_error (claim_of_nil rfl)]
        exact .exhausted hc (hs ▸ Nat.lt_succ_self 1) (hone.trans (draws_of_nil rfl))
      | cons r' rest =>
        rw [bind_of_ok (claim_of_cons rfl)]
        have htwo := hone.trans (draws_drawn rfl)
        by_cases hr : r = r'
        · subst hr
          rw [if_pos rfl]
          exact .twice hc hs htwo
        · rw [if_neg hr]
          exact .created hc (hs ▸ Nat.le_add_left 2 _) htwo.logged

/-- How many registers are asked for, to create an arbiter with `config`. -/
def registersFor (config : Config) : Nat := if config.problem? = none then 2 else 0

theorem Creates.draws {r : EStateM.Result Fault (Setup C σ) (Arbiter C σ × Ledger C σ)}
    (h : Creates config s r) : s.Draws (registersFor config) (left r) := by
  cases h with
  | invalid hc =>
    rw [registersFor, hc]
    exact .refl s
  | exhausted hc _ ht | twice hc _ ht | created hc _ ht =>
    rw [registersFor, hc]
    exact ht

/-! ## Installing and launching -/

theorem install_of_error {e : Fault} (h : create scheduler initial config s = .error e t) :
    install scheduler initial config s = .error e t := by
  rw [install, bind_of_error h]

theorem install_of_ok (h : create scheduler initial config s = .ok a t) :
    install scheduler initial config s = (attach a.1 >>= fun _ => pure a) t := by
  rw [install, bind_of_ok h]

theorem draws_install (scheduler : Scheduler C σ) (initial : σ) (config : Config) (s : Setup C σ) :
    s.Draws (registersFor config) (left (install scheduler initial config s)) := by
  have hd := (create_outcome scheduler initial config s).draws
  cases h : create scheduler initial config s with
  | error e t =>
    rw [h] at hd
    exact install_of_error h ▸ hd
  | ok a t =>
    rw [h] at hd
    have hattach := hd.trans (draws_attach a.1 t)
    rw [install_of_ok h]
    cases h' : attach a.1 t with
    | ok x u =>
      rw [h'] at hattach
      exact bind_of_ok h' _ ▸ hattach
    | error e u =>
      rw [h'] at hattach
      exact bind_of_error h' _ ▸ hattach

/-- Launching is installing, after some lines have been written perhaps. -/
theorem launch_apply (scheduler : Scheduler C σ) (initial : σ) (config : Config) (s : Setup C σ) :
    ∃ log, launch scheduler initial config s = install scheduler initial config { s with log } := by
  unfold launch
  split
  · exact ⟨_, rfl⟩
  · exact ⟨s.log, rfl⟩

/-- **Whoever installs an arbiter where there are handlers is refused**, and is told so exactly if there were
registers for it. -/
theorem install_of_attached (harb : s.substrate.handlers = some arb) (hc : config.problem? = none)
    (hnodup : s.substrate.supply.Nodup) (scheduler : Scheduler C σ) (initial : σ) :
    ∃ t, install scheduler initial config s = .error
        (if 2 ≤ s.substrate.supply.length then .alreadyInitialized else .registersExhausted) t ∧
      t.substrate.handlers = some arb := by
  have ho := create_outcome scheduler initial config s
  generalize h : create scheduler initial config s = r at ho
  cases ho with
  | invalid hbad => nomatch hbad.symm.trans hc
  | @exhausted t _ hs ht =>
    rw [if_neg (Nat.not_le.mpr hs)]
    exact ⟨t, install_of_error h, ht.kept arb harb⟩
  | twice _ hs =>
    rw [hs] at hnodup
    exact absurd List.mem_cons_self (List.nodup_cons.mp hnodup).1
  | @created t a _ hs ht =>
    have hattach := attach_of_attached (ht.kept arb harb) a.1
    rw [if_pos hs, install_of_ok h]
    exact ⟨t, bind_of_error hattach _, ht.kept arb harb⟩

end Arbiter

/-! ## Any number of attempts -/

namespace Setup

open Arbiter

variable {C σ : Type}

/-- **An attempt to set something up.** -/
inductive Act (C σ : Type) where
  | claim
  | attach (arb : Arbiter C σ)
  | create (scheduler : Scheduler C σ) (initial : σ) (config : Config)
  | install (scheduler : Scheduler C σ) (initial : σ) (config : Config)
  | launch (scheduler : Scheduler C σ) (initial : σ) (config : Config)

/-- What an attempt leaves behind, whether it succeeds or fails. -/
def after (s : Setup C σ) : Act C σ → Setup C σ
  | .claim => left (claim s)
  | .attach arb => left (attach arb s)
  | .create scheduler initial config => left (create scheduler initial config s)
  | .install scheduler initial config => left (install scheduler initial config s)
  | .launch scheduler initial config => left (launch scheduler initial config s)

/-- How many registers an attempt asks for. -/
def Act.asks : Act C σ → Nat
  | claim => 1
  | attach _ => 0
  | create _ _ config | install _ _ config | launch _ _ config => registersFor config

/-- **What an attempt draws**, whether it succeeds or fails. -/
theorem draws_after (s : Setup C σ) (a : Act C σ) : s.Draws a.asks (s.after a) := by
  cases a with
  | claim => exact draws_claim s
  | attach arb => exact draws_attach arb s
  | create scheduler initial config => exact (create_outcome scheduler initial config s).draws
  | install scheduler initial config => exact draws_install scheduler initial config s
  | launch scheduler initial config =>
    obtain ⟨log, h⟩ := launch_apply scheduler initial config s
    rw [after, h]
    exact (draws_install scheduler initial config _).of_logged

/-- **What any number of attempts draws.** -/
theorem draws_foldl (s : Setup C σ) (acts : List (Act C σ)) :
    s.Draws (acts.map Act.asks).sum (acts.foldl after s) := by
  induction acts generalizing s with
  | nil => exact .refl s
  | cons a acts ih => exact (draws_after s a).trans (ih _)

end Setup

namespace Arbiter

open Setup

variable {C σ : Type} {config : Config} {arb : Arbiter C σ}

/-- **A second installation is always refused, but it is not always told why.**  Once the simulated
substrate has handlers, whatever was attempted on it before, installing or launching an arbiter with a good
configuration fails and leaves these handlers where they are.  It is told that there is an arbiter already
if at most two registers had been asked for, and otherwise that there are no registers. -/
theorem install_again {acts : List (Act C σ)} {log : Array Log.Entry} {s : Setup C σ}
    (hs : acts.foldl after ⟨.simulated, log⟩ = s) (harb : s.substrate.handlers = some arb)
    (hc : config.problem? = none) (scheduler : Scheduler C σ) (initial : σ) :
    let e : Fault :=
      if (acts.map Act.asks).sum ≤ 2 then .alreadyInitialized else .registersExhausted
    (∃ t, install scheduler initial config s = .error e t ∧ t.substrate.handlers = some arb) ∧
      ∃ t, launch scheduler initial config s = .error e t ∧ t.substrate.handlers = some arb := by
  intro e
  have hsupply : s.substrate.supply = _ := hs ▸ (draws_foldl _ acts).supply_eq
  have hnodup : s.substrate.supply.Nodup :=
    hsupply ▸ List.Nodup.sublist (List.drop_sublist _ _) Substrate.simulated_nodup
  have he : e = if 2 ≤ s.substrate.supply.length then .alreadyInitialized else .registersExhausted := by
    have hlength : s.substrate.supply.length = 4 - (acts.map Act.asks).sum := by
      rw [hsupply, List.length_drop]
      rfl
    exact if_congr (by omega) rfl rfl
  rw [he]
  obtain ⟨log', hlaunch⟩ := launch_apply scheduler initial config s
  rw [hlaunch]
  exact ⟨install_of_attached harb hc hnodup scheduler initial,
    install_of_attached (s := { s with log := log' }) harb hc hnodup scheduler initial⟩

/-- After one installation the second one is told so, but not if a register had been claimed before. -/
theorem install_again_claimed :
    (∃ t, install Rotation.scheduler {} { capacity := 2 }
        (after ⟨.simulated, #[]⟩ (.install Rotation.scheduler {} { capacity := 2 })) =
      .error .alreadyInitialized t ∧ t.substrate.handlers = some twoSlots) ∧
    ∃ t, install Rotation.scheduler {} { capacity := 2 }
        (after (after ⟨.simulated, #[]⟩ .claim) (.install Rotation.scheduler {} { capacity := 2 })) =
      .error .registersExhausted t ∧
      t.substrate.handlers = some { twoSlots with roleReg := ⟨1⟩, choiceReg := ⟨2⟩ } := by
  have hone : [Act.install Rotation.scheduler {} { capacity := 2 }].foldl after
      (⟨.simulated, #[]⟩ : Setup Cursor Rotation) = _ := rfl
  have htwo : [Act.claim, .install Rotation.scheduler {} { capacity := 2 }].foldl after
      (⟨.simulated, #[]⟩ : Setup Cursor Rotation) = _ := rfl
  exact ⟨(install_again hone rfl rfl _ _).1, (install_again htwo rfl rfl _ _).1⟩

end Arbiter

end SoleRunner
