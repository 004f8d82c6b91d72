import SoleRunner.Proofs.Spelling

/-!
# Proofs/Logging — a logger goes by what was last said

Each of a dozen kinds of call may be the first one, and then takes the settings from the environment.  What
is said about a setting is what the last call that sets it said, and otherwise what the environment gives
(`Settings.revised`).  A call that sets something leaves a logger that has taken its settings, so that none of
them is taken again; every other call only makes sure that they have been taken (`Logger.logger_respond`).
So a logger always goes by what was said (`Logger.Follows`), whatever it is called for first.

Logs that are kept as entries are rendered by settings, without a logger.  They read just as a logger with
these settings would write them (`Logger.written_entries`).
-/

namespace SoleRunner.Log

/-! ## What calls say about the settings -/

namespace Call

variable {c : Call}

/-- The level that the call sets. -/
def level? : Call → Option Level
  | setLevel l => some l
  | _ => none

/-- Whether the call switches flushing on or off. -/
def flush? : Call → Option Bool
  | setFlush on => some on
  | _ => none

/-- Whether the call switches stamps on or off. -/
def stamped? : Call → Option Bool
  | setStamped on => some on
  | _ => none

/-- The call reads or sets a cell.  Only one that asks about `off` need not look. -/
def looks : Call → Bool
  | enabled l | message l _ => l ≠ .off
  | _ => true

/-- What the call makes of the settings. -/
def revise (c : Call) (s : Settings) : Settings where
  level := c.level?.getD s.level
  flush := c.flush?.getD s.flush
  stamped := c.stamped?.getD s.stamped

/-- A call that does not look sets nothing. -/
theorem revise_of_not_looks (h : c.looks = false) (s : Settings) : c.revise s = s := by
  cases c with
  | enabled | message => rfl
  | init | level | flush | setLevel | setFlush | setStamped | print | printLine => cases h

end Call

variable {env : Environment} {now : Nat} {l : Logger} {c : Call} {cs ds : List (Nat × Call)}
  {level : Level} {text : String}

/-- The last value that calls set, each of them at its time. -/
def lastSet {α : Type} (sets : Call → Option α) (cs : List (Nat × Call)) : Option α :=
  (cs.filterMap fun c => sets c.2).getLast?

/-- A later call has the last word, if it sets the value. -/
theorem lastSet_concat {α : Type} (sets : Call → Option α) (cs : List (Nat × Call)) (c : Nat × Call) :
    lastSet sets (cs ++ [c]) = (sets c.2).or (lastSet sets cs) := by
  rw [lastSet, List.filterMap_append]
  cases h : sets c.2 <;> simp [h, lastSet]

/-- The time of the first call that looks at a cell. -/
def firstLook (cs : List (Nat × Call)) : Option Nat := (cs.find? fun c => c.2.looks).map Prod.fst

/-- A later call is the first one to look only if none has looked before. -/
theorem firstLook_concat (cs : List (Nat × Call)) (now : Nat) (c : Call) :
    firstLook (cs ++ [(now, c)]) = (firstLook cs).or (if c.looks then some now else none) := by
  rw [firstLook, List.find?_append, firstLook]
  cases cs.find? fun c => c.2.looks <;> cases h : c.looks <;> simp [h]

namespace Settings

/-- **The settings after some calls**: each is what the last call that sets it says, and otherwise as
before. -/
def revised (s : Settings) (cs : List (Nat × Call)) : Settings where
  level := (lastSet Call.level? cs).getD s.level
  flush := (lastSet Call.flush? cs).getD s.flush
  stamped := (lastSet Call.stamped? cs).getD s.stamped

/-- **The last call revises what was said before.** -/
theorem revised_concat (s : Settings) (cs : List (Nat × Call)) (c : Nat × Call) :
    s.revised (cs ++ [c]) = c.2.revise (s.revised cs) := by
  simp only [revised, Call.revise, lastSet_concat, Option.getD_or]

/-- A level lets a message through if the message is at most at the level; there is none at `off`. -/
theorem lets_iff (s : Settings) (level : Level) :
    s.lets level = true ↔ level ≠ .off ∧ level.number ≤ s.level.number := by
  simp [lets]

end Settings

/-! ## One call -/

namespace Logger

/-- The settings that the next call to read a cell finds there. -/
def effective (env : Environment) (l : Logger) : Settings := (l.init env 0).settings

/-- The cells once the call has set what it sets. -/
def set (l : Logger) (c : Call) : Logger :=
  { l with
    level := (c.level?.map Level.number).getD l.level
    flush := c.flush?.getD l.flush
    stamped := c.stamped?.getD l.stamped }

/-- Stamps count from the time at which the settings were taken. -/
def Dated (l : Logger) : Prop := l.epoch?.isSome = l.initialized

/-- The environment is looked at once. -/
theorem init_of_initialized (h : l.initialized = true) : l.init env now = l := if_pos h

@[simp] theorem initialized_init : (l.init env now).initialized = true := by
  rw [init]
  split
  next h => exact h
  next => rfl

/-- A call that looks finds the effective settings. -/
theorem settings_init (env : Environment) (now : Nat) (l : Logger) :
    (l.init env now).settings = l.effective env := by
  rw [effective, init, init]
  split <;> rfl

/-- After that they are what the cells hold. -/
theorem effective_of_initialized (h : l.initialized = true) : l.effective env = l.settings := by
  rw [effective, init_of_initialized h]

/-- Whoever takes the settings dates the stamps, if nobody has. -/
theorem epoch?_init (hd : l.Dated) : (l.init env now).epoch? = l.epoch?.or (some now) := by
  rw [init]
  cases h : l.epoch? with
  | none =>
    rw [Dated, h] at hd
    rw [if_neg (by simp [← hd])]
    rfl
  | some t =>
    rw [Dated, h, Option.isSome_some] at hd
    rw [if_pos hd.symm, h]
    rfl

/-- **A new logger goes by the environment.** -/
theorem effective_new : ({} : Logger).effective env = .ofEnvironment env := by
  rw [effective, settings, init, if_neg Bool.false_ne_true, Settings.ofEnvironment]
  cases Level.parse? (env.text "VSPIN_LOG_LEVEL" "warn") with
  | none => rfl
  | some level => simp [Level.ofNumber_number]

/-- What a call sets is what it says. -/
theorem settings_set : (l.set c).settings = c.revise l.settings := by
  rw [settings, set, Call.revise]
  cases c.level? with
  | none => rfl
  | some level => simp [settings, Level.ofNumber_number]

/-- Whether a message is written is decided by the effective level. -/
theorem enabled_eq : l.enabled env now level =
    ((l.effective env).lets level, if level = .off then l else l.init env now) := by
  rw [enabled]
  split
  next h => simp [h, Settings.lets]
  next h => simp [h, Settings.lets, settings_init]

/-- The stamp is that of the cells, and leaves a dated logger as it is. -/
theorem stamp_eq (hd : l.Dated) (h : l.initialized = true) :
    l.stamp now = (l.settings.stamp (now - l.epoch?.getD now), l) := by
  obtain ⟨t, ht⟩ := Option.isSome_iff_exists.mp (hd.trans h)
  have hkeep : { l with epoch? := some t } = l := by rw [← ht]
  rw [stamp, ht]
  split
  next => exact congrArg (Prod.mk _) hkeep
  next hoff => simp [Settings.stamp, settings, hoff]

theorem dated_init (hd : l.Dated) : (l.init env now).Dated := by
  rw [Dated, epoch?_init hd, initialized_init]
  cases l.epoch? <;> rfl

/-- A text is written as it is. -/
theorem write_init : (l.init env now).write env now text =
    { text, flushed := (l.effective env).flush, logger := l.init env now } := by
  rw [write, init_of_initialized initialized_init, ← settings_init env now l]
  rfl

/-- **A message is written by the settings in force.** -/
theorem respond_message (hd : l.Dated) : l.respond env now (.message level text) =
    if (l.effective env).lets level then
      { text := (l.effective env).stamp (now - (l.epoch?.or (some now)).getD now) ++ messageLine level text
        flushed := (l.effective env).flush
        logger := l.init env now }
    else { logger := if level = .off then l else l.init env now } := by
  rw [respond, enabled_eq]
  by_cases hlets : (l.effective env).lets level = true
  · have hoff : level ≠ .off := by
      rintro rfl
      nomatch hlets
    simp only [hlets, if_true, if_neg hoff, stamp_eq (dated_init hd) initialized_init, settings_init,
      epoch?_init hd, write_init]
  · simp only [hlets, if_false, Bool.false_eq_true]

/-- **What a call leaves behind**: a call that looks at a cell leaves a logger that has taken its settings,
changed by what the call sets. -/
theorem logger_respond (hd : l.Dated) :
    (l.respond env now c).logger = if c.looks then (l.init env now).set c else l := by
  cases c with
  | init | level | flush | setLevel | setFlush | setStamped | print | printLine => rfl
  | enabled level =>
    have hset : (l.init env now).set (.enabled level) = l.init env now := rfl
    rw [respond, enabled_eq, hset]
    by_cases h : level = .off <;> simp [h, Call.looks]
  | message level text =>
    have hset : (l.init env now).set (.message level text) = l.init env now := rfl
    rw [respond_message hd, hset]
    by_cases h : level = .off
    · simp [h, Settings.lets, Call.looks]
    · rw [if_neg h]
      split <;> simp [h, Call.looks]

/-- **A call revises what the logger goes by, and nothing else.** -/
theorem effective_respond (hd : l.Dated) :
    (l.respond env now c).logger.effective env = c.revise (l.effective env) := by
  rw [logger_respond hd]
  split
  next =>
    have hready : ((l.init env now).set c).initialized = true := initialized_init
    rw [effective_of_initialized hready, settings_set, settings_init]
  next h => rw [Call.revise_of_not_looks (Bool.eq_false_iff.mpr h)]

/-- The first call that looks dates the stamps. -/
theorem epoch?_respond (hd : l.Dated) : (l.respond env now c).logger.epoch? =
    l.epoch?.or (if c.looks then some now else none) := by
  rw [logger_respond hd]
  split
  next => exact epoch?_init hd
  next => exact Option.or_none.symm

theorem dated_respond (hd : l.Dated) : (l.respond env now c).logger.Dated := by
  rw [logger_respond hd]
  split
  next => exact dated_init hd
  next => exact hd

/-! ## A run of calls -/

/-- The logger after some calls, each made at its time. -/
def after (env : Environment) (l : Logger) (cs : List (Nat × Call)) : Logger :=
  cs.foldl (fun l c => (l.respond env c.1 c.2).logger) l

/-- **What a logger is like after some calls**: it goes by what they said, and dates its stamps by the
first one that looked. -/
structure Follows (env : Environment) (cs : List (Nat × Call)) (l : Logger) : Prop where
  dated : l.Dated
  effective_eq : l.effective env = (Settings.ofEnvironment env).revised cs
  epoch_eq : l.epoch? = firstLook cs

theorem follows_new (env : Environment) : ({} : Logger).Follows env [] where
  dated := rfl
  effective_eq := effective_new
  epoch_eq := rfl

namespace Follows

/-- **One more call**, whatever it is, is followed. -/
theorem respond (h : l.Follows env cs) (now : Nat) (c : Call) :
    (l.respond env now c).logger.Follows env (cs ++ [(now, c)]) where
  dated := dated_respond h.dated
  effective_eq := by rw [effective_respond h.dated, h.effective_eq, Settings.revised_concat]
  epoch_eq := by rw [epoch?_respond h.dated, h.epoch_eq, firstLook_concat]

/-- **So is any number of them.** -/
theorem after (h : l.Follows env cs) (ds : List (Nat × Call)) : (l.after env ds).Follows env (cs ++ ds) := by
  induction ds generalizing l cs with
  | nil => rwa [List.append_nil]
  | cons d ds ih => exact List.append_cons cs d ds ▸ ih (h.respond d.1 d.2)

/-- The cells hold the settings as soon as a call has looked at one. -/
theorem settings_eq (h : l.Follows env cs) (hlook : ∃ c ∈ cs, c.2.looks = true) :
    l.settings = (Settings.ofEnvironment env).revised cs := by
  have hsome : (firstLook cs).isSome := by
    rw [firstLook, Option.isSome_map, List.find?_isSome]
    exact hlook
  rw [← h.epoch_eq, h.dated] at hsome
  rw [← effective_of_initialized hsome, h.effective_eq]

end Follows

/-! ## Which settings it goes by -/

/-- How a message at a level is tagged.  There are none at `off`. -/
inductive Tagged : Level → String → Prop
  | error : Tagged .error "[ERROR]"
  | warn : Tagged .warn "[WARN] "
  | info : Tagged .info "[INFO] "
  | debug : Tagged .debug "[DEBUG]"
  | trace : Tagged .trace "[TRACE]"

/-- Every other level is tagged as `Level.tag` says. -/
theorem tagged_tag (h : level ≠ .off) : Tagged level level.tag := by
  cases level with
  | off => exact absurd rfl h
  | error => exact .error
  | warn => exact .warn
  | info => exact .info
  | debug => exact .debug
  | trace => exact .trace

/-- **What a logger does by settings `s`**, with stamps of `elapsed` microseconds. -/
structure GoesBy (env : Environment) (now elapsed : Nat) (s : Settings) (l : Logger) : Prop where
  level : (l.respond env now .level).answer = .level s.level
  flush : (l.respond env now .flush).answer = .flag s.flush
  enabled : ∀ level, (l.respond env now (.enabled level)).answer =
    .flag (level ≠ .off ∧ level.number ≤ s.level.number)
  /-- A message at most at the level is one line: the time if stamps are on, ten columns wide, then the
  tag and the text. -/
  message : ∀ level text, level ≠ .off → level.number ≤ s.level.number → ∃ tag, Tagged level tag ∧
    (l.respond env now (.message level text)).text =
      (if s.stamped then
        String.ofList (List.replicate (10 - (toString elapsed).length) ' ') ++ toString elapsed ++ "us "
      else "") ++ ("[vspin] " ++ tag ++ " " ++ text ++ "\n") ∧
    (l.respond env now (.message level text)).flushed = s.flush
  /-- Any other message is not written. -/
  silent : ∀ level text, level = .off ∨ s.level.number < level.number →
    (l.respond env now (.message level text)).text = "" ∧
    (l.respond env now (.message level text)).flushed = false
  /-- A text is written at every level, and without a stamp. -/
  print : ∀ text, (l.respond env now (.print text)).text = text ∧
    (l.respond env now (.print text)).flushed = s.flush
  printLine : ∀ text, (l.respond env now (.printLine text)).text = text ++ "\n" ∧
    (l.respond env now (.printLine text)).flushed = s.flush

/-- A dated logger goes by its effective settings. -/
theorem goesBy_effective (hd : l.Dated) (env : Environment) (now : Nat) :
    l.GoesBy env now (now - l.epoch?.getD now) (l.effective env) where
  level := by
    rw [← settings_init env now l]
    rfl
  flush := by
    rw [← settings_init env now l]
    rfl
  enabled level := by
    have hlets := (l.effective env).lets_iff level
    rw [respond, enabled_eq, Bool.eq_iff_iff.mpr (hlets.trans decide_eq_true_iff.symm)]
  message level text hoff hle := by
    have hlets := ((l.effective env).lets_iff level).mpr ⟨hoff, hle⟩
    rw [respond_message hd, if_pos hlets, Option.getD_or]
    exact ⟨_, tagged_tag hoff, rfl, rfl⟩
  silent level text hnot := by
    have hlets : ¬ (l.effective env).lets level = true := by
      rw [Settings.lets_iff]
      rintro ⟨hoff, hle⟩
      exact hnot.elim hoff (Nat.not_lt.mpr hle)
    rw [respond_message hd, if_neg hlets]
    exact ⟨rfl, rfl⟩
  print text := by
    rw [← settings_init env now l]
    exact ⟨rfl, rfl⟩
  printLine text := by
    rw [← settings_init env now l]
    exact ⟨rfl, rfl⟩

/-- **The last setting is in force.**  Let a new logger be called in any way, whatever comes first, in any
environment.  It then goes by what was said about each setting: by what the last call that set it said,
and otherwise by the environment.  Nothing that a call set is taken from the environment again, and no call
goes by a default while the environment says something else: a message is written, as one line, if its
level is at most the one in force, and a plain text at every level and without the time.  As soon as any
call has looked, the cells hold just these settings. -/
theorem last_setting_in_force (env : Environment) (cs : List (Nat × Call)) (now : Nat) :
    let l := ({} : Logger).after env cs
    let given := Settings.ofEnvironment env
    given.GivenBy env ∧
    l.GoesBy env now (now - (firstLook cs).getD now) (given.revised cs) ∧
    ((∃ c ∈ cs, c.2.looks = true) → l.settings = given.revised cs) := by
  intro l given
  have h : l.Follows env cs := (follows_new env).after cs
  have hgoes := goesBy_effective h.dated env now
  rw [h.effective_eq, h.epoch_eq] at hgoes
  exact ⟨Settings.givenBy_ofEnvironment env, hgoes, h.settings_eq⟩

end Logger

/-! ## Entries -/

/-- The call that writes an entry. -/
def Entry.call : Entry → Call
  | line text => .printLine text
  | message level text => .message level text

theorem Entry.revise_call (entry : Entry) (s : Settings) : entry.call.revise s = s := by
  cases entry <;> rfl

namespace Logger

/-- What a logger writes in some calls. -/
def written (env : Environment) (l : Logger) : List (Nat × Call) → String
  | [] => ""
  | c :: cs => (l.respond env c.1 c.2).text ++ (l.respond env c.1 c.2).logger.written env cs

/-- **An entry reads as its call writes it.** -/
theorem text_respond_entry (hd : l.Dated) (entry : Entry) : (l.respond env now entry.call).text =
    (l.effective env).render (now - l.epoch?.getD now) entry := by
  cases entry with
  | line text => rfl
  | message level text =>
    rw [Entry.call, respond_message hd, Option.getD_or, Settings.render]
    split <;> rfl

/-- **Entries that are written at one moment** read as they are rendered by the settings in force. -/
theorem written_entries (hd : l.Dated) (hepoch : l.epoch?.getD now = now) (entries : List Entry) :
    l.written env (entries.map fun entry => (now, entry.call)) = (l.effective env).renderAll entries := by
  induction entries generalizing l with
  | nil => rfl
  | cons entry entries ih =>
    have hnext : (l.respond env now entry.call).logger.epoch?.getD now = now := by
      rw [epoch?_respond hd, Option.getD_or]
      split <;> exact hepoch
    have hrest := ih (dated_respond hd) hnext
    rw [effective_respond hd, Entry.revise_call] at hrest
    rw [List.map_cons, written, text_respond_entry hd, hepoch, Nat.sub_self, hrest, Settings.renderAll,
      Settings.renderAll, List.map_cons, String.join_cons]

end Logger

end SoleRunner.Log
