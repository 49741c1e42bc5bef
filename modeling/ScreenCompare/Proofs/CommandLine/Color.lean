import ScreenCompare.Proofs.CommandLine.Spelling

/-!
# Color is asked for exactly if the switch is given

Whether messages are colored has to be known before the arguments are read, in
case they cannot be.  So the switch is looked for among all arguments, wherever
it stands and whatever its number of dashes.  That is no different from reading
them (`asksForColor_of_parse`): in a command line that is accepted (`Accepts`) a
value does not look like the switch, the switch has no value, and nothing follows
a separator.
-/

namespace ScreenCompare.CommandLine

variable {argument : String} {arguments : List String} {draft next : Draft}
  {option : ValueOption} {switch : Switch}

/-! ## The switch for color among the arguments -/

/-- The argument is the switch for color, in either spelling. -/
def namesColor (argument : String) : Bool :=
  argument == "-color-diagnostics" || argument == "--color-diagnostics"

theorem namesColor_iff :
    namesColor argument = true ↔
      argument = "-color-diagnostics" ∨ argument = "--color-diagnostics" := by
  rw [namesColor, Bool.or_eq_true, beq_iff_eq, beq_iff_eq]

theorem namesColor_normalizeOption (argument : String) :
    namesColor (normalizeOption argument) = namesColor argument := by
  rw [normalizeOption_eq]
  split
  · next single =>
      have undashed : ¬ HasSingleDash "color-diagnostics" := by decide
      have dashed : ¬ HasSingleDash "--color-diagnostics" := by decide
      have short : "-color-diagnostics" = "-" ++ "color-diagnostics" := by decide
      have long : "--color-diagnostics" = "-" ++ "-color-diagnostics" := by decide
      have first : "-" ++ argument ≠ "-color-diagnostics" := fun same =>
        undashed ((String.append_right_inj "-").1 (same.trans short) ▸ single)
      have second : argument ≠ "--color-diagnostics" := fun same =>
        dashed (same ▸ single)
      rw [Bool.eq_iff_iff, namesColor_iff, namesColor_iff, or_iff_right first,
        or_iff_left second, long]
      exact String.append_right_inj "-"
  · rfl

theorem any_namesColor_normalizeFrom (isValue : Bool)
    (arguments : List String) :
    (normalizeFrom isValue arguments).any namesColor =
      arguments.any namesColor := by
  fun_induction normalizeFrom isValue arguments with
  | case1 => rfl
  | case2 value rest inductionHypothesis =>
      rw [List.any_cons, inductionHypothesis, List.any_cons]
  | case3 argument rest option inductionHypothesis =>
      rw [List.any_cons, inductionHypothesis, List.any_cons,
        namesColor_normalizeOption]

theorem asksForColor_eq (arguments : List String) :
    asksForColor arguments = ((normalize arguments).drop 1).any namesColor := by
  cases arguments with
  | nil => rfl
  | cons name rest => exact (any_namesColor_normalizeFrom false rest).symm

/-! ## How the switch is read -/

namespace Token

theorem switch?_of_ofLong {text : List Char}
    (long : ofLong text = .switch switch) :
    switch? (String.ofList text) = some switch := by
  have whole := beforeEquals_append_attached text
  rw [ofLong] at long
  cases attached : afterEquals? text with
  | none =>
      rw [attached, Option.map_none, Option.getD_none, List.append_nil] at whole
      rw [attached, whole] at long
      split at long
      · cases long
      · next found _ named =>
          rw [named]
          injection long with same
          rw [same]
      · split at long <;> cases long
  | some value =>
      rw [attached] at long
      split at long
      · cases long
      · cases long
      · split at long <;> cases long

theorem ofShort_ne_switch (letter : Char) (rest : List Char) :
    ofShort letter rest ≠ .switch switch := by
  unfold ofShort
  split
  · split <;> exact Token.noConfusion
  · split <;> exact Token.noConfusion

end Token

theorem eq_of_switch? {name : String}
    (found : switch? name = some .colorDiagnostics) :
    name = "color-diagnostics" := by
  unfold switch? at found
  split at found
  · cases found
  · cases found
  · cases found
  · rfl
  · cases found
  · cases found

theorem eq_of_read (read : Token.read argument = .switch .colorDiagnostics) :
    argument = "--color-diagnostics" := by
  rw [Token.read] at read
  split at read
  · cases read
  · next text _ letters =>
      have named := eq_of_switch? (Token.switch?_of_ofLong read)
      have same : argument = "--" ++ String.ofList text :=
        String.toList_inj.1 (by simpa using letters)
      rw [same, named]
      rfl
  · exact absurd read (Token.ofShort_ne_switch _ _)
  · cases read

/--
An argument that can be read at all names color exactly if it is read as the
switch for it.
-/
theorem namesColor_of_read {token : Token} (read : Token.read argument = token)
    (known : ∀ shown, token ≠ .unexpected shown) :
    namesColor argument = decide (token = .switch .colorDiagnostics) := by
  rw [Bool.eq_iff_iff, namesColor_iff, decide_eq_true_iff]
  constructor
  · rintro (rfl | rfl)
    · exact absurd read.symm (known "-c")
    · exact read.symm
  · rintro rfl
    exact .inr (eq_of_read read)

theorem namesColor_of_canBeValue (value : canBeValue argument = true) :
    namesColor argument = false := by
  rw [Bool.eq_false_iff]
  intro names
  have rejected : ∀ switch ∈ ["-color-diagnostics", "--color-diagnostics"],
      canBeValue switch = false := by
    decide
  rw [rejected argument (by simpa using namesColor_iff.1 names)] at value
  cases value

/-! ## What collecting options does to the switch -/

theorem exists_of_map_eq_ok {ε α β : Type} {change : α → β}
    {first : Except ε α} {result : β}
    (mapped : first.map change = .ok result) :
    ∃ value, first = .ok value ∧ change value = result := by
  cases first with
  | error problem => cases mapped
  | ok value => exact ⟨value, rfl, Except.ok.inj mapped⟩

namespace Draft

theorem colorDiagnostics_store {value : String}
    (stored : draft.store option value = .ok next) :
    next.colorDiagnostics = draft.colorDiagnostics := by
  unfold store at stored
  split at stored
  · split at stored <;> cases stored
    rfl
  · split at stored <;> cases stored
    rfl
  · cases stored
    rfl
  · obtain ⟨threshold, -, rfl⟩ := exists_of_map_eq_ok stored
    rfl
  · obtain ⟨count, -, rfl⟩ := exists_of_map_eq_ok stored
    rfl

theorem colorDiagnostics_addOption {value : Option String}
    (added : draft.addOption option value = .ok next) :
    next.colorDiagnostics = draft.colorDiagnostics := by
  cases value with
  | none => cases added
  | some value =>
      rw [addOption] at added
      split at added
      · cases added
      · exact colorDiagnostics_store added

theorem colorDiagnostics_settle
    {pending : Option (ValueOption × Option String)}
    (settled : draft.settle pending = .ok next) :
    next.colorDiagnostics = draft.colorDiagnostics := by
  cases pending with
  | none =>
      cases settled
      rfl
  | some pending => exact colorDiagnostics_addOption settled

theorem colorDiagnostics_addSwitch
    (added : draft.addSwitch switch = .ok next) :
    next.colorDiagnostics =
      (decide (switch = .colorDiagnostics) || draft.colorDiagnostics) := by
  rw [addSwitch] at added
  split at added
  · cases added
  · cases added
    cases switch <;> rfl

theorem colorDiagnostics_complete {parsed : Arguments}
    (completed : draft.complete = .ok parsed) :
    parsed.colorDiagnostics = draft.colorDiagnostics := by
  rw [complete] at completed
  split at completed
  · cases completed
    rfl
  · cases completed

end Draft

/-! ## Command lines that are accepted -/

/--
The arguments that a draft accepts up to a final one.  Nothing follows a
separator, a switch has no value, and a value that stands on its own can be one.
-/
inductive Accepts : (draft : Draft) →
    (pending : Option (ValueOption × Option String)) → List String →
    (final : Draft) → Prop where
  | done {draft final : Draft} {pending : Option (ValueOption × Option String)}
      (settles : draft.settle pending = .ok final) :
      Accepts draft pending [] final
  | separator {draft final : Draft}
      {pending : Option (ValueOption × Option String)} {argument : String}
      (read : Token.read argument = .separator)
      (settles : draft.settle pending = .ok final) :
      Accepts draft pending [argument] final
  | switch {draft settled next final : Draft}
      {pending : Option (ValueOption × Option String)} {argument : String}
      {rest : List String} {switch : Switch}
      (read : Token.read argument = .switch switch)
      (settles : draft.settle pending = .ok settled)
      (adds : settled.addSwitch switch = .ok next)
      (others : Accepts next none rest final) :
      Accepts draft pending (argument :: rest) final
  | attached {draft settled next final : Draft}
      {pending : Option (ValueOption × Option String)} {argument : String}
      {rest : List String} {option : ValueOption} {value : String}
      (read : Token.read argument = .option option (some value))
      (settles : draft.settle pending = .ok settled)
      (adds : settled.addOption option (some value) = .ok next)
      (others : Accepts next none rest final) :
      Accepts draft pending (argument :: rest) final
  | separate {draft settled final : Draft}
      {pending : Option (ValueOption × Option String)} {argument : String}
      {rest : List String} {option : ValueOption} {value : String}
      (read : Token.read argument = .option option none)
      (settles : draft.settle pending = .ok settled)
      (isValue : canBeValue value = true)
      (others : Accepts settled (some (option, some value)) rest final) :
      Accepts draft pending (argument :: value :: rest) final

section Accepts

variable {pending : Option (ValueOption × Option String)} {final : Draft}

/-- Nothing is accepted behind an option that has found no value. -/
theorem not_accepts_of_pending :
    ¬ Accepts draft (some (option, none)) arguments final := by
  intro accepts
  cases accepts with
  | done settles => cases settles
  | separator _ settles => cases settles
  | switch _ settles => cases settles
  | attached _ settles => cases settles
  | separate _ settles => cases settles

theorem accepts_of_readFrom
    (read : readFrom draft pending arguments = .ok (some final)) :
    Accepts draft pending arguments final := by
  fun_induction readFrom draft pending arguments with
  | case1 draft pending =>
      obtain ⟨settled, settles, same⟩ := exists_of_map_eq_ok read
      cases same
      exact .done settles
  | case2 draft pending argument token =>
      obtain ⟨settled, settles, same⟩ := exists_of_map_eq_ok read
      cases same
      exact .separator token settles
  | case6 draft pending argument rest token =>
      obtain ⟨settled, -, same⟩ := exists_of_map_eq_ok read
      cases same
  | case8 draft pending argument rest switch token next added
      inductionHypothesis =>
      cases settles : draft.settle pending with
      | error problem => rw [settles] at added; cases added
      | ok settled =>
          rw [settles] at added
          exact .switch token settles added (inductionHypothesis read)
  | case10 draft pending argument rest option value token next added
      inductionHypothesis =>
      cases settles : draft.settle pending with
      | error problem => rw [settles] at added; cases added
      | ok settled =>
          rw [settles] at added
          exact .attached token settles added (inductionHypothesis read)
  | case12 draft pending argument option token settled settles
      inductionHypothesis =>
      exact absurd (inductionHypothesis read) not_accepts_of_pending
  | case13 draft pending argument option token settled settles value rest
      isValue inductionHypothesis =>
      exact .separate token settles isValue (inductionHypothesis read)
  | case14 draft pending argument option token settled settles value rest
      isValue inductionHypothesis =>
      exact absurd (inductionHypothesis read) not_accepts_of_pending
  | case3 => cases read
  | case4 => cases read
  | case5 => cases read
  | case7 => cases read
  | case9 => cases read
  | case11 => cases read

/--
The final draft has the switch for color if the first one has it or an argument
names it.
-/
theorem Accepts.colorDiagnostics
    (accepts : Accepts draft pending arguments final) :
    final.colorDiagnostics =
      (arguments.any namesColor || draft.colorDiagnostics) := by
  induction accepts with
  | done settles => exact Draft.colorDiagnostics_settle settles
  | separator read settles =>
      rw [Draft.colorDiagnostics_settle settles, List.any_cons,
        namesColor_of_read read nofun]
      rfl
  | switch read settles adds _ inductionHypothesis =>
      rw [inductionHypothesis, Draft.colorDiagnostics_addSwitch adds,
        Draft.colorDiagnostics_settle settles, List.any_cons,
        namesColor_of_read read nofun, Bool.or_assoc, Bool.or_left_comm]
      simp only [Token.switch.injEq]
  | attached read settles adds _ inductionHypothesis =>
      rw [inductionHypothesis, Draft.colorDiagnostics_addOption adds,
        Draft.colorDiagnostics_settle settles, List.any_cons,
        namesColor_of_read read nofun]
      rfl
  | separate read settles isValue _ inductionHypothesis =>
      rw [inductionHypothesis, Draft.colorDiagnostics_settle settles,
        List.any_cons, List.any_cons, namesColor_of_read read nofun,
        namesColor_of_canBeValue isValue]
      rfl

end Accepts

/--
Whenever a command line is accepted and asks for a comparison, color is asked for
exactly if the switch for it has been read.
-/
theorem asksForColor_of_parse {parsed : Arguments}
    (accepted : parse arguments = .ok (.run parsed)) :
    asksForColor arguments = parsed.colorDiagnostics := by
  rw [parse] at accepted
  split at accepted
  · cases accepted
  · cases accepted
  · next final read =>
      obtain ⟨completed, completes, same⟩ := exists_of_map_eq_ok accepted
      cases same
      rw [Draft.colorDiagnostics_complete completes,
        (accepts_of_readFrom read).colorDiagnostics, asksForColor_eq]
      exact (Bool.or_false _).symm

/--
The switch comes right behind a value that is a single dash.  The name of a
picture looks like the switch, and a separator is the last argument.
-/
theorem color_is_asked_for_behind_a_dash :
    let arguments :=
      ["shot_diff", "-new", "after.png", "-output", "-", "-color-diagnostics",
        "--old=-color-diagnostics", "--"]
    let parsed : Arguments :=
      { settings :=
          { Settings.standard "-color-diagnostics" "after.png" with
            outputPrefix := "-" }
        threadCount := none
        perf := false
        colorDiagnostics := true }
    parse arguments = .ok (.run parsed) ∧
      asksForColor arguments = parsed.colorDiagnostics := by
  intro arguments parsed
  have normalized : normalize arguments =
      ["shot_diff", "--new", "after.png", "--output", "-",
        "--color-diagnostics", "--old=-color-diagnostics", "--"] := by
    decide
  have accepted : parse arguments = .ok (.run parsed) := by
    rw [parse, normalized]
    simp [readFrom, Token.read, Token.ofLong, Token.withoutValue, beforeEquals,
      afterEquals?, valueOption?, switch?, canBeValue, Draft.empty,
      Draft.settle, Draft.addOption, Draft.has, Draft.store, Draft.addSwitch,
      Draft.isOn, Draft.turnOn, Except.bind, Except.map, Draft.complete,
      Settings.standard, parsed]
  exact ⟨accepted, asksForColor_of_parse accepted⟩

end ScreenCompare.CommandLine
