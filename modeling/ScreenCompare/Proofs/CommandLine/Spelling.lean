import ScreenCompare.CommandLine.Request

/-!
# The number of dashes does not matter

Whether an argument is an option depends on the arguments before it, since an
option that takes a value makes the next argument one.  The places at which
options may stand are told here from the arguments as they were given
(`IsOptionPlace`), and normalizing leaves all other places alone
(`getElem?_normalize`).  An option counts the same with one dash as with two, so
giving some options their second dash moves no place (`isOptionPlace_respell`)
and changes nothing after normalizing (`normalize_ignores_dashes`).
-/

namespace ScreenCompare.CommandLine

variable {argument : String} {arguments : List String}

/-! ## The name of an option and its value -/

/--
A text is its part before the first equals sign, and what is attached to it.
-/
theorem beforeEquals_append_attached (text : List Char) :
    beforeEquals text ++ ((afterEquals? text).map ('=' :: ·)).getD [] =
      text := by
  rw [afterEquals?]
  induction text with
  | nil => rfl
  | cons first rest inductionHypothesis =>
      by_cases sign : first = '='
      · simp [beforeEquals, sign]
      · simpa [beforeEquals, sign] using inductionHypothesis

theorem beforeEquals_append {name : List Char} (plain : '=' ∉ name)
    (attached : Option (List Char)) :
    beforeEquals (name ++ (attached.map ('=' :: ·)).getD []) = name := by
  rw [beforeEquals, List.takeWhile_append_of_pos]
  · cases attached with
    | none => simp
    | some value => simp
  · intro character member
    rw [decide_eq_true_iff]
    rintro rfl
    exact plain member

theorem longNames_plain : ∀ name ∈ longNames,
    '=' ∉ name.toList ∧ name.toList.head? ≠ some '-' ∧ name ≠ "" := by
  decide

/-! ## Long options with a single dash -/

/--
The argument is a known long option with a single dash, with or without an
attached value.
-/
def HasSingleDash (argument : String) : Prop :=
  ∃ name ∈ longNames, argument = "-" ++ name ∨
    ∃ value, argument = "-" ++ name ++ "=" ++ value

theorem hasSingleDash_iff :
    HasSingleDash argument ↔
      ∃ name ∈ longNames, ∃ attached : Option (List Char),
        argument.toList =
          '-' :: (name.toList ++ (attached.map ('=' :: ·)).getD []) := by
  refine exists_congr fun name => and_congr_right fun _ => ⟨?_, ?_⟩
  · rintro (rfl | ⟨value, rfl⟩)
    · exact ⟨none, by simp⟩
    · exact ⟨some value.toList, by simp⟩
  · rintro ⟨attached, spelled⟩
    cases attached with
    | none => exact .inl (String.toList_inj.1 (by simpa using spelled))
    | some value =>
        refine .inr ⟨String.ofList value, String.toList_inj.1 ?_⟩
        simpa using spelled

theorem lacksDash_iff : lacksDash argument = true ↔ HasSingleDash argument := by
  rw [hasSingleDash_iff, lacksDash]
  constructor
  · intro lacks
    split at lacks
    · next rest spelled =>
        rw [Bool.and_eq_true, List.contains_iff_mem] at lacks
        refine ⟨_, lacks.2, afterEquals? rest, ?_⟩
        rw [String.toList_ofList, beforeEquals_append_attached]
        exact spelled
    · cases lacks
  · rintro ⟨name, known, attached, spelled⟩
    obtain ⟨plain, undashed, nonempty⟩ := longNames_plain name known
    have head : (name.toList ++ (attached.map ('=' :: ·)).getD []).head? =
        name.toList.head? := by
      cases letters : name.toList with
      | nil => exact absurd (String.toList_eq_nil_iff.1 letters) nonempty
      | cons first rest => rfl
    rw [spelled]
    simp only [beforeEquals_append plain, String.ofList_toList, head]
    rw [Bool.and_eq_true, List.contains_iff_mem]
    refine ⟨?_, known⟩
    cases first : name.toList.head? with
    | none => rfl
    | some letter =>
        rw [first] at undashed
        simpa using undashed

instance (argument : String) : Decidable (HasSingleDash argument) :=
  decidable_of_iff _ lacksDash_iff

/-- With its second dash, an option has no single dash any more. -/
theorem HasSingleDash.lacksDash_append (single : HasSingleDash argument) :
    lacksDash ("-" ++ argument) = false := by
  obtain ⟨name, _, attached, spelled⟩ := hasSingleDash_iff.1 single
  rw [lacksDash, String.toList_append, spelled]
  rfl

theorem normalizeOption_eq (argument : String) :
    normalizeOption argument =
      if HasSingleDash argument then "-" ++ argument else argument := by
  rw [normalizeOption]
  simp only [lacksDash_iff]

theorem HasSingleDash.normalizeOption_append
    (single : HasSingleDash argument) :
    normalizeOption ("-" ++ argument) = normalizeOption argument := by
  rw [normalizeOption, single.lacksDash_append, normalizeOption_eq,
    if_pos single]
  rfl

/-! ## Places for options -/

/-- The ways to write an option that takes the next argument as its value. -/
def valueSpellings : List String :=
  ["-o", "-new", "--new", "-old", "--old", "-output", "--output", "-threshold",
    "--threshold", "-thread_count", "--thread_count"]

theorem mem_valueSpellings_of_mem :
    ∀ option ∈ valueOptions, option ∈ valueSpellings := by
  decide

theorem eq_append_of_mem_valueOptions : ∀ option ∈ valueOptions,
    option = "-o" ∨ ∃ spelling ∈ valueSpellings, option = "-" ++ spelling := by
  decide

theorem expectsValue_normalizeOption_iff :
    expectsValue (normalizeOption argument) = true ↔
      argument ∈ valueSpellings := by
  constructor
  · intro expects
    rw [expectsValue, Bool.and_eq_true, List.contains_iff_mem] at expects
    have member := expects.2
    rw [normalizeOption_eq] at member
    split at member
    · next single =>
        rcases eq_append_of_mem_valueOptions _ member with
          short | ⟨spelling, known, same⟩
        · obtain ⟨name, _, attached, spelled⟩ := hasSingleDash_iff.1 single
          have letters := congrArg String.toList short
          rw [String.toList_append, spelled] at letters
          simp at letters
        · rw [(String.append_right_inj _).1 same]
          exact known
    · exact mem_valueSpellings_of_mem argument member
  · have all : ∀ option ∈ valueSpellings,
        expectsValue (normalizeOption option) = true := by
      decide
    exact all argument

/--
An option may stand at a place, unless it is that of the program's name or comes
right behind an option that takes the next argument as its value.
-/
def IsOptionPlace (arguments : List String) : (place : Nat) → Prop
  | 0 => False
  | place + 1 =>
      ¬ (IsOptionPlace arguments place ∧
        ∃ option ∈ arguments[place]?, option ∈ valueSpellings)

instance decidableIsOptionPlace (arguments : List String) :
    (place : Nat) → Decidable (IsOptionPlace arguments place)
  | 0 => isFalse id
  | place + 1 =>
      have := decidableIsOptionPlace arguments place
      inferInstanceAs (Decidable (¬ (_ ∧ _)))

theorem isOptionPlace_succ {place : Nat}
    (found : arguments[place]? = some argument) :
    IsOptionPlace arguments (place + 1) ↔
      ¬ (IsOptionPlace arguments place ∧ argument ∈ valueSpellings) := by
  simp [IsOptionPlace, found]

/-- One step of the scan, which knows of a place whether it holds a value. -/
theorem normalizeFrom_drop {place : Nat}
    (found : arguments[place]? = some argument) :
    normalizeFrom (!decide (IsOptionPlace arguments place))
        (arguments.drop place) =
      (if IsOptionPlace arguments place then normalizeOption argument
        else argument) ::
        normalizeFrom (!decide (IsOptionPlace arguments (place + 1)))
          (arguments.drop (place + 1)) := by
  have rest : arguments.drop place =
      argument :: arguments.drop (place + 1) := by
    obtain ⟨inside, rfl⟩ := List.getElem?_eq_some_iff.1 found
    exact List.drop_eq_getElem_cons inside
  rw [rest]
  simp only [isOptionPlace_succ found]
  by_cases option : IsOptionPlace arguments place
  · have expects : decide (argument ∈ valueSpellings) =
        expectsValue (normalizeOption argument) := by
      rw [Bool.eq_iff_iff, expectsValue_normalizeOption_iff, decide_eq_true_iff]
    simp [option, normalizeFrom, expects]
  · simp [option, normalizeFrom]

theorem getElem?_normalizeFrom (start offset : Nat) :
    (normalizeFrom (!decide (IsOptionPlace arguments start))
        (arguments.drop start))[offset]? =
      arguments[start + offset]?.map fun argument =>
        if IsOptionPlace arguments (start + offset) then
          normalizeOption argument
        else argument := by
  induction offset generalizing start with
  | zero =>
      cases found : arguments[start]? with
      | none =>
          rw [List.drop_eq_nil_of_le (List.getElem?_eq_none_iff.1 found)]
          simp [normalizeFrom]
      | some argument =>
          rw [normalizeFrom_drop found]
          simp
  | succ offset inductionHypothesis =>
      have next : start + (offset + 1) = start + 1 + offset := by omega
      cases found : arguments[start]? with
      | none =>
          have outside := List.getElem?_eq_none_iff.1 found
          rw [List.drop_eq_nil_of_le outside,
            List.getElem?_eq_none (Nat.le_add_right_of_le outside)]
          simp [normalizeFrom]
      | some argument =>
          rw [normalizeFrom_drop found, List.getElem?_cons_succ,
            inductionHypothesis, next]

/-- Normalizing changes an argument only where an option may stand. -/
theorem getElem?_normalize (arguments : List String) (place : Nat) :
    (normalize arguments)[place]? =
      arguments[place]?.map fun argument =>
        if IsOptionPlace arguments place then normalizeOption argument
        else argument := by
  have scanned :
      (normalizeFrom true arguments)[place]? = arguments[0 + place]?.map _ :=
    getElem?_normalizeFrom 0 place
  rw [Nat.zero_add] at scanned
  exact scanned

theorem length_normalizeFrom (isValue : Bool) (arguments : List String) :
    (normalizeFrom isValue arguments).length = arguments.length := by
  fun_induction normalizeFrom isValue arguments with
  | case1 => rfl
  | case2 value rest inductionHypothesis =>
      rw [List.length_cons, inductionHypothesis, List.length_cons]
  | case3 argument rest option inductionHypothesis =>
      rw [List.length_cons, inductionHypothesis, List.length_cons]

/-! ## Giving some options their second dash -/

/--
Give the long options with a single dash at some chosen places their second
dash, as far as options may stand there.
-/
def respell (chosen : Nat → Bool) (arguments : List String) : List String :=
  arguments.mapIdx fun place argument =>
    if chosen place ∧ IsOptionPlace arguments place ∧ HasSingleDash argument then
      "-" ++ argument
    else argument

theorem getElem?_respell (chosen : Nat → Bool) (place : Nat) :
    (respell chosen arguments)[place]? =
      arguments[place]?.map fun argument =>
        if chosen place ∧ IsOptionPlace arguments place ∧
          HasSingleDash argument then "-" ++ argument
        else argument :=
  List.getElem?_mapIdx

theorem HasSingleDash.mem_valueSpellings_iff (single : HasSingleDash argument) :
    "-" ++ argument ∈ valueSpellings ↔ argument ∈ valueSpellings := by
  rw [← expectsValue_normalizeOption_iff, single.normalizeOption_append,
    expectsValue_normalizeOption_iff]

/-- A second dash moves no place at which an option may stand. -/
theorem isOptionPlace_respell (chosen : Nat → Bool) (place : Nat) :
    IsOptionPlace (respell chosen arguments) place ↔
      IsOptionPlace arguments place := by
  induction place with
  | zero => rfl
  | succ place inductionHypothesis =>
      rw [IsOptionPlace, IsOptionPlace, inductionHypothesis, getElem?_respell]
      cases arguments[place]? with
      | none => simp
      | some argument =>
          simp only [Option.map_some, Option.mem_some_iff, exists_eq_left']
          -- Either spelling makes the next argument a value, or none does.
          split
          · next respelled => rw [respelled.2.2.mem_valueSpellings_iff]
          · rfl

theorem normalize_respell (chosen : Nat → Bool) (arguments : List String) :
    normalize (respell chosen arguments) = normalize arguments := by
  apply List.ext_getElem?
  intro place
  rw [getElem?_normalize, getElem?_normalize, getElem?_respell]
  simp only [isOptionPlace_respell]
  cases arguments[place]? with
  | none => rfl
  | some argument =>
      simp only [Option.map_some]
      split
      · split
        · next respelled => rw [respelled.2.2.normalizeOption_append]
        · rfl
      · next option =>
          rw [if_neg fun respelled => option respelled.2.1]

/-- Normalizing gives all options their second dash. -/
theorem normalize_eq_respell (arguments : List String) :
    normalize arguments = respell (fun _ => true) arguments := by
  apply List.ext_getElem?
  intro place
  rw [getElem?_normalize, getElem?_respell]
  congr 1
  funext argument
  rw [normalizeOption_eq]
  by_cases option : IsOptionPlace arguments place
  · simp [option]
  · simp [option]

theorem headD_normalize (arguments : List String) (default : String) :
    (normalize arguments).headD default = arguments.headD default := by
  cases arguments with
  | nil => rfl
  | cons name rest => rfl

theorem parse_eq_of_normalize_eq {first second : List String}
    (same : normalize first = normalize second) : parse first = parse second := by
  have head : first.headD "" = second.headD "" := by
    rw [← headD_normalize, same, headD_normalize]
  rw [parse, parse, same, head]

/--
Normalizing keeps every argument in its place.  The program's name and the values
of options stay as they are, and so does everything else that is not a long
option with a single dash; such an option gets its second dash.  Whoever writes
some of these dashes already gets the same arguments and the same request, and
normalizing a second time changes nothing.
-/
theorem normalize_ignores_dashes (arguments : List String) :
    (normalize arguments).length = arguments.length ∧
      (normalize arguments)[0]? = arguments[0]? ∧
      (∀ place, IsOptionPlace arguments place →
        (∃ option ∈ arguments[place]?, option ∈ valueSpellings) →
          (normalize arguments)[place + 1]? = arguments[place + 1]?) ∧
      (∀ place argument, arguments[place]? = some argument →
        (normalize arguments)[place]? =
          some (if IsOptionPlace arguments place ∧ HasSingleDash argument then
            "-" ++ argument else argument)) ∧
      (∀ chosen, normalize (respell chosen arguments) = normalize arguments ∧
        parse (respell chosen arguments) = parse arguments) ∧
      normalize (normalize arguments) = normalize arguments := by
  have changed (place : Nat) (argument : String)
      (found : arguments[place]? = some argument) :
      (normalize arguments)[place]? =
        some (if IsOptionPlace arguments place ∧ HasSingleDash argument then
          "-" ++ argument else argument) := by
    rw [normalize_eq_respell, getElem?_respell, found]
    simp
  refine ⟨length_normalizeFrom true arguments, ?_, ?_, changed, ?_, ?_⟩
  · rw [getElem?_normalize]
    simp [IsOptionPlace]
  · intro place option value
    have closed : ¬ IsOptionPlace arguments (place + 1) :=
      fun opened => opened ⟨option, value⟩
    rw [getElem?_normalize]
    simp [closed]
  · intro chosen
    have same := normalize_respell chosen arguments
    exact ⟨same, parse_eq_of_normalize_eq same⟩
  · rw [normalize_eq_respell arguments]
    exact (normalize_respell _ arguments).trans (normalize_eq_respell arguments)

/--
A value keeps its single dash even if it looks like an option.  Of the options
behind it, one is written with two dashes already.
-/
theorem value_keeps_single_dash :
    let arguments :=
      ["shot_diff", "-output", "-old", "-old", "-new", "-perf=1"]
    let respelled :=
      ["shot_diff", "-output", "-old", "--old", "-new", "-perf=1"]
    IsOptionPlace arguments 1 ∧ "-output" ∈ valueSpellings ∧
      (normalize arguments)[2]? = some "-old" ∧
      normalize arguments =
        ["shot_diff", "--output", "-old", "--old", "-new", "--perf=1"] ∧
      normalize respelled = normalize arguments ∧
      parse respelled = parse arguments := by
  intro arguments respelled
  have option : IsOptionPlace arguments 1 := by decide
  have known : "-output" ∈ valueSpellings := by decide
  have chosen : respell (· == 3) arguments = respelled := by decide
  have normalized : normalize arguments =
      ["shot_diff", "--output", "-old", "--old", "-new", "--perf=1"] := by
    decide
  obtain ⟨-, -, kept, -, same, -⟩ := normalize_ignores_dashes arguments
  have respells := same (· == 3)
  rw [chosen] at respells
  exact ⟨option, known, kept 1 option ⟨"-output", rfl, known⟩, normalized,
    respells⟩

end ScreenCompare.CommandLine
