import ComplexCalculator.Proofs.Rpn.Failure
import ComplexCalculator.Session.Command
import Mathlib.Data.List.Induction

/-!
# The history of a session

What a session remembers is explained by its history: the precision is the one that was
accepted last, and the entries are those of the expression that was parsed last, converted
at the precision of that moment.  A step that fails changes nothing, and neither does a
query.  Parse errors of parsing carry the expression; those of evaluation carry none.
-/

namespace ComplexCalculator

/-- Whether a failure, if it is a parse error, carries no expression. -/
def Failure.IsUnattributed : Failure → Prop
  | .parse error => error.expression = .none
  | _ => True

/-- Adding the expression leaves no other one. -/
theorem Failure.expression_of_withExpression {failure : Failure} {given : Datum}
    {error : ParseError} (h : failure.withExpression given = .parse error) :
    error.expression = given := by
  cases failure <;> simp only [withExpression, reduceCtorEq, Failure.parse.injEq] at h
  rw [← h]

theorem Quantity.failsOnly_toReal (value : Quantity) :
    FailsOnly Failure.IsUnattributed value.toReal := by
  cases value with
  | integer n =>
      unfold toReal ofInteger
      dsimp only
      split
      · exact failsOnly_ok _ _
      · exact failsOnly_error trivial
  | real x => exact failsOnly_ok _ _
  | boolean b => exact failsOnly_ok _ _
  | _ => exact failsOnly_error trivial

theorem Quantity.failsOnly_toComplex (value : Quantity) :
    FailsOnly Failure.IsUnattributed value.toComplex := by
  unfold toComplex
  split
  · exact failsOnly_ok _ _
  · exact value.failsOnly_toReal.map _

theorem Expression.ofDatum_eq_ok {given : Datum} {expression : String}
    (h : ofDatum given = .ok expression) : given = .text expression := by
  cases given with
  | text value =>
      injection h with h
      rw [h]
  | _ => contradiction

namespace ComplexFormat

theorem checkPrecision_eq_ok_iff {given : Datum} {places : Nat} :
    checkPrecision given = .ok places ↔ given = .integer places := by
  constructor
  · intro h
    unfold checkPrecision at h
    split at h
    · injection h with h
      rw [h]
      rfl
    · contradiction
  · rintro rfl
    rfl

end ComplexFormat

namespace Session

/-! ## Steps -/

/-- Whether a command only asks. -/
def Command.IsQuery : Command → Prop
  | .parse _ => False
  | .setPrecision _ => False
  | _ => True

/-- A step of a run: a command with the state before it, the state after it and its
outcome. -/
structure Record where
  before : Session
  command : Command
  after : Session
  outcome : Except Failure Reply

/-- The step that a command leads to. -/
def recordOf (s : Session) (command : Command) : Record where
  before := s
  command := command
  after := (s.perform command).1
  outcome := (s.perform command).2

/-- What a step may do: only accepted precisions and parsed expressions change the state,
and only parsing adds the expression to its errors. -/
structure Record.Lawful (r : Record) : Prop where
  after_of_failure : ∀ failure, r.outcome = .error failure → r.after = r.before
  after_of_query : r.command.IsQuery → r.after = r.before
  after_of_setPrecision : ∀ given reply, r.command = .setPrecision given →
    r.outcome = .ok reply →
    ∃ places : Nat, given = .integer places ∧ r.after = { r.before with precision := places }
  after_of_parse : ∀ given reply, r.command = .parse given → r.outcome = .ok reply →
    ∃ expression entries, given = .text expression ∧
      Rpn.convertExpression r.before.format expression = .ok entries ∧
      r.after = { r.before with stored := entries }
  expression_of_parse : ∀ given error, r.command = .parse given →
    r.outcome = .error (.parse error) → error.expression = given
  expression_of_query : ∀ error, r.command.IsQuery → r.outcome = .error (.parse error) →
    error.expression = .none

section

variable {s : Session}

/-- A step that fails is an attempt that fails, and keeps the state. -/
theorem attempt_eq_error {command : Command} {failure : Failure}
    (h : (s.recordOf command).outcome = .error failure) :
    s.attempt command = .error failure ∧ (s.recordOf command).after = s := by
  rw [recordOf, perform] at h ⊢
  cases hattempt : s.attempt command with
  | error found =>
      rw [hattempt] at h
      injection h with h
      exact ⟨congrArg Except.error h, rfl⟩
  | ok found =>
      rw [hattempt] at h
      contradiction

/-- A step with a reply is an attempt with this reply, and has its state. -/
theorem attempt_eq_ok {command : Command} {reply : Reply}
    (h : (s.recordOf command).outcome = .ok reply) :
    s.attempt command = .ok ((s.recordOf command).after, reply) := by
  rw [recordOf, perform] at h ⊢
  cases hattempt : s.attempt command with
  | error found =>
      rw [hattempt] at h
      contradiction
  | ok found =>
      rw [hattempt] at h
      injection h with h
      rw [← h]

/-- The failure of a query carries no expression. -/
theorem failsOnly_attempt {command : Command} (h : command.IsQuery) :
    FailsOnly Failure.IsUnattributed (s.attempt command) := by
  have hevaluate (value : Quantity) : FailsOnly Failure.IsUnattributed (s.evaluate value) :=
    failsOnly_evaluate (fun _ => rfl) (ComplexFormat.failsOnly_format trivial trivial s.format)
      value.failsOnly_toReal
  cases command with
  | parse expression => exact h.elim
  | setPrecision precision => exact h.elim
  | evaluate value => exact (hevaluate value).map _
  | evaluateComplex value =>
      exact ((hevaluate value).bind fun text _ =>
        s.format.failsOnly_read (fun _ => rfl) text).map _
  | getPrecision => exact failsOnly_ok _ _
  | format value =>
      exact (value.failsOnly_toComplex.bind fun z _ =>
        ComplexFormat.failsOnly_format trivial trivial s.format z).map _
  | storedEntries => exact failsOnly_ok _ _

/-- A query that gets a reply leaves the state as it was. -/
theorem eq_of_attempt_query {command : Command} (h : command.IsQuery) {next : Session}
    {reply : Reply} (hattempt : s.attempt command = .ok (next, reply)) : next = s := by
  have hkept {α : Type} {x : Except Failure α} {g : α → Reply}
      (hx : x.map (fun a => (s, g a)) = .ok (next, reply)) : next = s := by
    obtain ⟨a, -, ha⟩ := map_eq_ok_iff.mp hx
    exact (congrArg Prod.fst ha).symm
  cases command with
  | parse expression => exact h.elim
  | setPrecision precision => exact h.elim
  | evaluate value => exact hkept hattempt
  | evaluateComplex value => exact hkept hattempt
  | getPrecision =>
      injection hattempt with heq
      exact (congrArg Prod.fst heq).symm
  | format value => exact hkept hattempt
  | storedEntries =>
      injection hattempt with heq
      exact (congrArg Prod.fst heq).symm

/-- What parsing fails with carries what was given. -/
theorem expression_of_parse_eq_error {given : Datum} {error : ParseError}
    (h : s.parse given = .error (.parse error)) : error.expression = given := by
  rw [parse] at h
  split at h
  · injection h with h
    injection h with h
    rw [← h]
  · split at h
    · contradiction
    · injection h with h
      exact Failure.expression_of_withExpression h

theorem parse_eq_ok {given : Datum} {next : Session} (h : s.parse given = .ok next) :
    ∃ expression entries, given = .text expression ∧
      Rpn.convertExpression s.format expression = .ok entries ∧
      next = { s with stored := entries } := by
  rw [parse] at h
  split at h
  · contradiction
  · split at h
    · rename_i entries hconvert
      injection h with h
      obtain ⟨expression, hexpression, hentries⟩ := bind_eq_ok_iff.mp hconvert
      exact ⟨expression, entries, Expression.ofDatum_eq_ok hexpression, hentries, h.symm⟩
    · contradiction

theorem lawful_recordOf (s : Session) (command : Command) : (s.recordOf command).Lawful where
  after_of_failure failure h := (attempt_eq_error h).2
  after_of_query h := by
    cases houtcome : (s.recordOf command).outcome with
    | error failure => exact (attempt_eq_error houtcome).2
    | ok reply => exact eq_of_attempt_query h (attempt_eq_ok houtcome)
  after_of_setPrecision given reply hcommand h := by
    have hattempt := attempt_eq_ok h
    obtain rfl : command = .setPrecision given := hcommand
    obtain ⟨next, hnext, hreply⟩ := map_eq_ok_iff.mp hattempt
    obtain ⟨places, hplaces, rfl⟩ := map_eq_ok_iff.mp hnext
    exact ⟨places, ComplexFormat.checkPrecision_eq_ok_iff.mp hplaces,
      (congrArg Prod.fst hreply).symm⟩
  after_of_parse given reply hcommand h := by
    have hattempt := attempt_eq_ok h
    obtain rfl : command = .parse given := hcommand
    obtain ⟨next, hnext, hreply⟩ := map_eq_ok_iff.mp hattempt
    obtain ⟨expression, entries, hgiven, hconvert, rfl⟩ := parse_eq_ok hnext
    exact ⟨expression, entries, hgiven, hconvert, (congrArg Prod.fst hreply).symm⟩
  expression_of_parse given error hcommand h := by
    obtain ⟨hattempt, -⟩ := attempt_eq_error h
    obtain rfl : command = .parse given := hcommand
    rw [attempt] at hattempt
    cases hparse : s.parse given with
    | error failure =>
        rw [hparse] at hattempt
        injection hattempt with hattempt
        exact expression_of_parse_eq_error (hattempt ▸ hparse)
    | ok next =>
        rw [hparse] at hattempt
        contradiction
  expression_of_query error hquery h :=
    failsOnly_attempt hquery (.parse error) (attempt_eq_error h).1

end

/-! ## Runs -/

/-- The steps of a run, in order. -/
def history (s : Session) : List Command → List Record
  | [] => []
  | command :: commands => s.recordOf command :: history (s.perform command).1 commands

/-- The state that a run ends in. -/
def reached (s : Session) : List Command → Session
  | [] => s
  | command :: commands => reached (s.perform command).1 commands

/-- The precision that a step sets. -/
def Record.accepted? (r : Record) : Option Nat :=
  match r.command, r.outcome with
  | .setPrecision (.integer (.ofNat places)), .ok _ => some places
  | _, _ => none

/-- The expression that a step parses, with the precision at that moment. -/
def Record.parsed? (r : Record) : Option (Nat × String) :=
  match r.command, r.outcome with
  | .parse (.text expression), .ok _ => some (r.before.precision, expression)
  | _, _ => none

/-- The precision that was accepted last; the initial one if none has been. -/
def lastPrecision (initial : Nat) (history : List Record) : Nat :=
  (history.filterMap Record.accepted?).getLast?.getD initial

/-- The entries of the expression that was parsed last, at the precision of that moment;
there are none if nothing has been parsed. -/
def lastEntries (history : List Record) : Except Failure (List String) :=
  match (history.filterMap Record.parsed?).getLast? with
  | none => .ok []
  | some (places, expression) =>
    Rpn.convertExpression ⟨places, Alphabet.imaginaryUnit.toString⟩ expression

/-- Whether a state is the one that a history leads to. -/
structure Explains (initial : Nat) (history : List Record) (s : Session) : Prop where
  precision : s.precision = lastPrecision initial history
  stored : lastEntries history = .ok s.stored

theorem history_append (s : Session) (a b : List Command) :
    s.history (a ++ b) = s.history a ++ (s.reached a).history b := by
  induction a generalizing s with
  | nil => rfl
  | cons command a ih => exact congrArg (s.recordOf command :: ·) (ih _)

theorem reached_append (s : Session) (a b : List Command) :
    s.reached (a ++ b) = (s.reached a).reached b := by
  induction a generalizing s with
  | nil => rfl
  | cons command a ih => exact ih _

/-- The steps of a run are the states and outcomes that the run gives. -/
theorem map_history (s : Session) (commands : List Command) :
    (s.history commands).map (fun r => (r.after, r.outcome)) = s.run commands := by
  induction commands generalizing s with
  | nil => rfl
  | cons command commands ih => exact congrArg (s.perform command :: ·) (ih _)

/-- Every step begins where the one before it ended. -/
theorem getLast?_history (s : Session) (commands : List Command) :
    ((s.history commands).getLast?.map (·.after)).getD s = s.reached commands := by
  induction commands using List.reverseRecOn with
  | nil => rfl
  | append_singleton commands command ih =>
      rw [history_append, reached_append, history, history, List.getLast?_concat]
      rfl

section

variable {initial : Nat} {past : List Record} {r : Record}

theorem lastPrecision_concat (initial : Nat) (past : List Record) (r : Record) :
    lastPrecision initial (past ++ [r]) = r.accepted?.getD (lastPrecision initial past) := by
  rw [lastPrecision, lastPrecision, List.filterMap_append]
  cases h : r.accepted? <;> simp [h]

theorem lastEntries_concat_of_none (h : r.parsed? = none) :
    lastEntries (past ++ [r]) = lastEntries past := by
  rw [lastEntries, lastEntries, List.filterMap_append]
  simp [h]

theorem lastEntries_concat_of_some {places : Nat} {expression : String}
    (h : r.parsed? = some (places, expression)) :
    lastEntries (past ++ [r]) =
      Rpn.convertExpression ⟨places, Alphabet.imaginaryUnit.toString⟩ expression := by
  rw [lastEntries, List.filterMap_append]
  simp [h]

theorem Explains.concat_of_none (h : Explains initial past r.before)
    (haccepted : r.accepted? = none) (hparsed : r.parsed? = none) (hafter : r.after = r.before) :
    Explains initial (past ++ [r]) r.after where
  precision := by rw [lastPrecision_concat, haccepted, hafter, h.precision, Option.getD_none]
  stored := by rw [lastEntries_concat_of_none hparsed, hafter, h.stored]

/-- What one step does to the state is what it adds to the history. -/
theorem Explains.concat (h : Explains initial past r.before) (hr : r.Lawful) :
    Explains initial (past ++ [r]) r.after := by
  cases houtcome : r.outcome with
  | error failure =>
      refine h.concat_of_none ?_ ?_ (hr.after_of_failure failure houtcome)
      · simp [Record.accepted?, houtcome]
      · simp [Record.parsed?, houtcome]
  | ok reply =>
      cases hcommand : r.command with
      | setPrecision given =>
          obtain ⟨places, rfl, hafter⟩ := hr.after_of_setPrecision given reply hcommand houtcome
          have haccepted : r.accepted? = some places := by
            simp [Record.accepted?, hcommand, houtcome]
          have hparsed : r.parsed? = none := by simp [Record.parsed?, hcommand]
          constructor
          · rw [lastPrecision_concat, haccepted, hafter, Option.getD_some]
          · rw [lastEntries_concat_of_none hparsed, hafter, h.stored]
      | parse given =>
          obtain ⟨expression, entries, rfl, hentries, hafter⟩ :=
            hr.after_of_parse given reply hcommand houtcome
          have haccepted : r.accepted? = none := by simp [Record.accepted?, hcommand]
          have hparsed : r.parsed? = some (r.before.precision, expression) := by
            simp [Record.parsed?, hcommand, houtcome]
          constructor
          · rw [lastPrecision_concat, haccepted, hafter, h.precision, Option.getD_none]
          · rw [lastEntries_concat_of_some hparsed, hafter]
            exact hentries
      | _ =>
          refine h.concat_of_none ?_ ?_ (hr.after_of_query ?_)
          · simp [Record.accepted?, hcommand]
          · simp [Record.parsed?, hcommand]
          · rw [hcommand]
            trivial

end

/-- Every state that a new session reaches is explained by the steps that led to it. -/
theorem explains_reached (places : Nat) (commands : List Command) :
    Explains places ((⟨places, []⟩ : Session).history commands)
      ((⟨places, []⟩ : Session).reached commands) := by
  -- From the end of the run: only the step added last can change what came last.
  induction commands using List.reverseRecOn with
  | nil => exact ⟨rfl, rfl⟩
  | append_singleton commands command ih =>
      rw [history_append, reached_append]
      exact ih.concat (lawful_recordOf _ command)

/-- A step of a run is that of a command at the state that the earlier commands reach. -/
theorem exists_of_history_eq {s : Session} {commands : List Command} {past future : List Record}
    {r : Record} (h : s.history commands = past ++ r :: future) :
    ∃ earlier command later, commands = earlier ++ command :: later ∧
      past = s.history earlier ∧ r = (s.reached earlier).recordOf command := by
  induction past generalizing s commands with
  | nil =>
      cases commands with
      | nil => contradiction
      | cons command later =>
          injection h with h
          exact ⟨[], command, later, rfl, rfl, h.symm⟩
  | cons first past ih =>
      cases commands with
      | nil => contradiction
      | cons command commands =>
          injection h with hfirst h
          obtain ⟨earlier, last, later, rfl, rfl, hr⟩ := ih h
          exact ⟨command :: earlier, last, later, rfl, congrArg (· :: _) hfirst.symm, hr⟩

theorem create_eq_ok {given : Datum} {s : Session} (h : create given = .ok s) :
    ∃ places : Nat, given = .integer places ∧ s = ⟨places, []⟩ := by
  obtain ⟨places, hplaces, rfl⟩ := map_eq_ok_iff.mp h
  exact ⟨places, ComplexFormat.checkPrecision_eq_ok_iff.mp hplaces, rfl⟩

/-- After each step of each run of a new session, whatever the commands are and whichever
of them fail, the precision is the one that was accepted last and the entries are those of
the expression that was parsed last, at the precision of that moment.  Every step begins
where the one before it ended, failures and queries change nothing, and of all parse errors
exactly those of parsing carry an expression: the one that was given. -/
theorem run_history {given : Datum} {s : Session} (h : create given = .ok s)
    (commands : List Command) :
    (s.history commands).map (fun r => (r.after, r.outcome)) = s.run commands ∧
    ∃ places : Nat, given = .integer places ∧
      ∀ past r future, s.history commands = past ++ r :: future →
        r.before = (past.getLast?.map (·.after)).getD s ∧ r.Lawful ∧
        Explains places (past ++ [r]) r.after := by
  obtain ⟨places, hgiven, rfl⟩ := create_eq_ok h
  refine ⟨map_history _ commands, places, hgiven, ?_⟩
  intro past r future hsplit
  obtain ⟨earlier, command, later, -, rfl, rfl⟩ := exists_of_history_eq hsplit
  have hlawful := lawful_recordOf ((⟨places, []⟩ : Session).reached earlier) command
  refine ⟨?_, hlawful, ?_⟩
  · rw [getLast?_history]
    rfl
  · exact (explains_reached places earlier).concat hlawful

/-- The commands of a run in which the second attempts at parsing and at changing the
precision fail. -/
def twoFailures : List Command :=
  [.parse (.text "2I"), .setPrecision (.integer 1), .parse (.text ")"),
    .setPrecision (.integer (-1))]

/-- The entries of `2I` have the three places of the moment of parsing. -/
theorem run_history_twoFailures :
    create (.integer 3) = .ok ⟨3, []⟩ ∧
    ∃ past r, (⟨3, []⟩ : Session).history (twoFailures ++ [.evaluate .absent]) = past ++ [r] ∧
      r.before = r.after ∧ r.after.precision = 1 ∧
      Rpn.convertExpression ⟨3, "I"⟩ "2I" = .ok r.after.stored := by
  have hcreate : create (.integer 3) = .ok ⟨3, []⟩ := rfl
  obtain ⟨-, places, hplaces, hsteps⟩ := run_history hcreate (twoFailures ++ [.evaluate .absent])
  obtain rfl : 3 = places := by
    injection hplaces with hplaces
    exact Int.ofNat_inj.mp hplaces
  have hsplit : (⟨3, []⟩ : Session).history (twoFailures ++ [.evaluate .absent]) =
      (⟨3, []⟩ : Session).history twoFailures ++
        [((⟨3, []⟩ : Session).reached twoFailures).recordOf (.evaluate .absent)] :=
    history_append _ _ _
  obtain ⟨-, hlawful, hexplains⟩ := hsteps _ _ [] hsplit
  have hprecision := hexplains.precision
  have hstored := hexplains.stored
  rw [← hsplit] at hprecision hstored
  refine ⟨hcreate, _, _, hsplit, (hlawful.after_of_query trivial).symm, ?_, ?_⟩
  · rw [hprecision]
    decide +kernel
  · have hparsed : (((⟨3, []⟩ : Session).history
        (twoFailures ++ [.evaluate .absent])).filterMap Record.parsed?).getLast? =
          some (3, "2I") := by
      decide +kernel
    rw [lastEntries, hparsed] at hstored
    exact hstored

end Session

end ComplexCalculator
