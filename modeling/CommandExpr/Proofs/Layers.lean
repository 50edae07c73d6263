import CommandExpr.Proofs.Echoing
import CommandExpr.Proofs.Literals

/-!
# Where the settings come from

A setting comes from three layers: the option of the command line, below it the
variable of the environment, and below that the default.  A layer counts only if
it says something that can be used, and what a variable says is a matter of its
text.  A number stands between blanks, with or without a `+`, and is below 2⁶⁴;
a directory is the text as it stands, if there is any.

A numeric variable that says something else is passed over.  That is told once,
for each such variable, when the settings are made from the environment, and
does not wait for the options.

## Main definitions

* `Blank.Trims` — what is left of a text without the blanks at its ends
* `Configuration.Spells` — the number that a variable holds
* `Layered` — a setting and its three layers

## Main results

* `Blank.trims_iff`, `Configuration.setting_eq_number_iff` — what trimming leaves,
  and which texts are read as numbers.
* `Configuration.mem_warnings_iff` — the variables that are passed over.
* `CommandLine.configures` — every setting by its layers, and what is told.
-/

namespace CommandExpr

variable {σ : Type}

/-! ## Blanks -/

namespace Blank

/-- Is nothing there but blanks? -/
def AreBlanks (s : List Char) : Prop := ∀ c ∈ s, isBlank c = true

/-- A text without the blanks at its two ends. -/
structure Trims (raw core : List Char) : Prop where
  ends : ∃ front back, AreBlanks front ∧ AreBlanks back ∧ raw = front ++ core ++ back
  head : ∀ c ∈ core.head?, isBlank c = false
  last : ∀ c ∈ core.getLast?, isBlank c = false

theorem areBlanks_reverse {s : List Char} : AreBlanks s.reverse ↔ AreBlanks s := by
  simp only [AreBlanks, List.mem_reverse]

theorem areBlanks_takeWhile (s : List Char) : AreBlanks (s.takeWhile isBlank) :=
  List.all_eq_true.mp List.all_takeWhile

theorem dropWhile_of_areBlanks {s : List Char} (hs : AreBlanks s) : s.dropWhile isBlank = [] :=
  List.dropWhile_eq_nil_iff.mpr hs

/-- Nothing is dropped from a text that does not begin with a blank. -/
theorem dropWhile_of_head {s : List Char} (hs : ∀ c ∈ s.head?, isBlank c = false) :
    s.dropWhile isBlank = s := by
  cases s with
  | nil => rfl
  | cons c s => exact List.dropWhile_cons_of_neg (by simp [hs c rfl])

theorem head_dropWhile (s : List Char) :
    ∀ c ∈ (s.dropWhile isBlank).head?, isBlank c = false := by
  intro c hc
  have hnot := List.head?_dropWhile_not isBlank s
  rw [Option.mem_def.mp hc] at hnot
  exact hnot

/-- What is left is what stands between the blanks. -/
theorem Trims.eq_trim {raw core : List Char} (h : Trims raw core) : core = trim raw := by
  obtain ⟨front, back, hfront, hback, rfl⟩ := h.ends
  have hdrop : (front ++ core ++ back).dropWhile isBlank = (core ++ back).dropWhile isBlank := by
    rw [List.append_assoc, List.dropWhile_append_of_pos hfront]
  rw [trim, hdrop]
  cases core with
  | nil => rw [List.nil_append, dropWhile_of_areBlanks hback]; rfl
  | cons c core =>
      have hhead : ∀ d ∈ (c :: core ++ back).head?, isBlank d = false := h.head
      have hlast : ∀ d ∈ (c :: core).reverse.head?, isBlank d = false := by
        rw [List.head?_reverse]
        exact h.last
      rw [dropWhile_of_head hhead, List.reverse_append,
        List.dropWhile_append_of_pos (areBlanks_reverse.mpr hback), dropWhile_of_head hlast,
        List.reverse_reverse]

/-- Trimming takes nothing but blanks, and leaves none at the ends. -/
theorem trims_trim (raw : List Char) : Trims raw (trim raw) := by
  have hmiddle : raw.dropWhile isBlank
      = trim raw ++ ((raw.dropWhile isBlank).reverse.takeWhile isBlank).reverse := by
    rw [trim, ← List.reverse_append, List.takeWhile_append_dropWhile, List.reverse_reverse]
  refine ⟨⟨raw.takeWhile isBlank, ((raw.dropWhile isBlank).reverse.takeWhile isBlank).reverse,
    areBlanks_takeWhile raw, areBlanks_reverse.mpr (areBlanks_takeWhile _), ?_⟩, ?_, ?_⟩
  · rw [List.append_assoc, ← hmiddle, List.takeWhile_append_dropWhile]
  · intro c hc
    refine head_dropWhile raw c ?_
    rw [hmiddle, List.head?_append, Option.mem_def.mp hc]
    rfl
  · rw [trim, List.getLast?_reverse]
    exact head_dropWhile _

/-- **What trimming leaves.** -/
theorem trims_iff {raw core : List Char} : Trims raw core ↔ core = trim raw :=
  ⟨Trims.eq_trim, fun h => h ▸ trims_trim raw⟩

theorem trim_eq_nil_iff {raw : List Char} : trim raw = [] ↔ AreBlanks raw := by
  rw [eq_comm, ← trims_iff]
  constructor
  · intro h
    obtain ⟨front, back, hfront, hback, rfl⟩ := h.ends
    rw [List.append_nil]
    exact List.forall_mem_append.mpr ⟨hfront, hback⟩
  · intro h
    exact ⟨⟨raw, [], h, List.forall_mem_nil _, by simp⟩, nofun, nofun⟩

end Blank

/-! ## Variables -/

namespace Configuration

/-- The text holds a number below 2⁶⁴ and nothing else but blanks around it. -/
def Spells (raw : String) (n : Nat) : Prop :=
  ∃ sign run, (sign = [] ∨ sign = ['+']) ∧ Literal.IsRun run
    ∧ Blank.Trims raw.toList (sign ++ run) ∧ n = Literal.value run ∧ n < 2 ^ 64

theorem spells_iff {raw : String} {n : Nat} :
    Spells raw n ↔ Numeral.natural? (2 ^ 64) (Blank.trim raw.toList) = some n := by
  rw [Literal.natural?_eq_some_iff, Spells]
  simp only [Blank.trims_iff, eq_comm (a := Blank.trim raw.toList)]

/-- There is no number among blanks. -/
theorem not_areBlanks_of_spells {raw : String} {n : Nat} (h : Spells raw n) :
    ¬ Blank.AreBlanks raw.toList := by
  obtain ⟨sign, run, -, hrun, htrims, -, -⟩ := h
  intro hblanks
  have hnil : sign ++ run = [] := htrims.eq_trim.trans (Blank.trim_eq_nil_iff.mpr hblanks)
  exact hrun.1 (List.append_eq_nil_iff.mp hnil).2

theorem ofRaw_of_areBlanks {raw : String} (h : Blank.AreBlanks raw.toList) :
    Setting.ofRaw (some raw) = .absent := by
  simp only [Setting.ofRaw, Blank.trim_eq_nil_iff.mpr h, List.isEmpty_nil, if_true]

theorem ofRaw_of_not_areBlanks {raw : String} (h : ¬ Blank.AreBlanks raw.toList) :
    Setting.ofRaw (some raw) =
      (Numeral.natural? (2 ^ 64) (Blank.trim raw.toList)).elim (.unusable raw) .number := by
  have hne : (Blank.trim raw.toList).isEmpty = false :=
    List.isEmpty_eq_false_iff.mpr (mt Blank.trim_eq_nil_iff.mp h)
  simp only [Setting.ofRaw, hne, Bool.false_eq_true, if_false]
  cases Numeral.natural? (2 ^ 64) (Blank.trim raw.toList) <;> rfl

/-- **The texts from which a number is read.** -/
theorem setting_eq_number_iff {env : Environment} {name : String} {n : Nat} :
    setting env name = .number n ↔ ∃ raw, env.get? name = some raw ∧ Spells raw n := by
  rw [setting]
  cases env.get? name with
  | none => simp [Setting.ofRaw]
  | some raw =>
      simp only [Option.some.injEq, exists_eq_left']
      by_cases hblank : Blank.AreBlanks raw.toList
      · rw [ofRaw_of_areBlanks hblank]
        exact iff_of_false nofun fun h => not_areBlanks_of_spells h hblank
      · rw [ofRaw_of_not_areBlanks hblank, spells_iff]
        cases Numeral.natural? (2 ^ 64) (Blank.trim raw.toList) with
        | none => exact iff_of_false nofun nofun
        | some m => rw [Option.elim_some, Setting.number.injEq, Option.some.injEq]

/-- A variable is passed over: it is for a number, and something else is in it. -/
structure PassesOver (env : Environment) (name raw : String) : Prop where
  numeric : name = captureCapVariable ∨ name = timeoutVariable
  set : env.get? name = some raw
  inked : ¬ Blank.AreBlanks raw.toList
  unusable : ∀ n, ¬ Spells raw n

theorem setting_eq_unusable_iff {env : Environment} {name raw : String} :
    setting env name = .unusable raw ↔
      env.get? name = some raw ∧ ¬ Blank.AreBlanks raw.toList ∧ ∀ n, ¬ Spells raw n := by
  rw [setting]
  cases env.get? name with
  | none => simp [Setting.ofRaw]
  | some raw' =>
      by_cases hblank : Blank.AreBlanks raw'.toList
      · rw [ofRaw_of_areBlanks hblank]
        refine iff_of_false nofun ?_
        rintro ⟨h, hinked, -⟩
        exact hinked (Option.some.inj h ▸ hblank)
      · simp only [ofRaw_of_not_areBlanks hblank, spells_iff]
        cases hread : Numeral.natural? (2 ^ 64) (Blank.trim raw'.toList) with
        | none =>
            rw [Option.elim_none, Setting.unusable.injEq, Option.some.injEq]
            refine ⟨?_, And.left⟩
            rintro rfl
            exact ⟨rfl, hblank, fun n => by rw [hread]; nofun⟩
        | some n =>
            refine iff_of_false nofun ?_
            rintro ⟨h, -, hunusable⟩
            exact hunusable n (Option.some.inj h ▸ hread)

/-- **The variables that are passed over.** -/
theorem mem_warnings_iff {env : Environment} {name raw : String} :
    (name, raw) ∈ warnings env ↔ PassesOver env name raw := by
  have hnames : name ∈ [captureCapVariable, timeoutVariable] ↔
      name = captureCapVariable ∨ name = timeoutVariable := by simp
  constructor
  · intro hmem
    obtain ⟨name', hname, heq⟩ := List.mem_filterMap.mp hmem
    split at heq
    · rename_i text hsetting
      obtain ⟨rfl, rfl⟩ := Prod.mk.inj (Option.some.inj heq)
      obtain ⟨hset, hinked, hunusable⟩ := setting_eq_unusable_iff.mp hsetting
      exact ⟨hnames.mp hname, hset, hinked, hunusable⟩
    · cases heq
  · intro h
    have hsetting := setting_eq_unusable_iff.mpr ⟨h.set, h.inked, h.unusable⟩
    exact List.mem_filterMap.mpr ⟨name, hnames.mpr h.numeric, by rw [hsetting]⟩

/-- No variable is passed over twice. -/
theorem nodup_warnings (env : Environment) : (warnings env).Nodup := by
  refine List.Nodup.filterMap ?_ (by decide)
  intro name name' told htold htold'
  split at htold
  · split at htold'
    · exact congrArg Prod.fst ((Option.some.inj htold).trans (Option.some.inj htold').symm)
    · cases htold'
  · cases htold

end Configuration

/-! ## Layers -/

/-- A setting with its layers: the option counts if it is given, below it a value that can be
used, and below that the default. -/
inductive Layered {α : Type} (option : Option α) (Usable : α → Prop) (default : α) :
    α → Prop where
  | option {a : α} (hoption : option = some a) : Layered option Usable default a
  | usable {a : α} (hoption : option = none) (husable : Usable a) :
      Layered option Usable default a
  | default (hoption : option = none) (hnone : ∀ a, ¬ Usable a) :
      Layered option Usable default default

theorem layered_iff {α : Type} {option : Option α} {Usable : α → Prop} {default a : α}
    {value? : Option α} (husable : ∀ b, Usable b ↔ value? = some b) :
    Layered option Usable default a ↔ a = option.getD (value?.getD default) := by
  constructor
  · intro h
    cases h with
    | option hoption => rw [hoption, Option.getD_some]
    | usable hoption hvalue =>
        rw [hoption, (husable a).mp hvalue, Option.getD_none, Option.getD_some]
    | default hoption hnone =>
        have hvalue : value? = none := Option.eq_none_iff_forall_ne_some.mpr fun b hb =>
          hnone b ((husable b).mpr hb)
        rw [hoption, hvalue, Option.getD_none, Option.getD_none]
  · rintro rfl
    cases option with
    | some a => exact .option rfl
    | none =>
        cases value? with
        | some b => exact .usable rfl ((husable b).mpr rfl)
        | none => exact .default rfl fun b hb => nomatch (husable b).mp hb

namespace Configuration

/-- The variable holds a number that can be used. -/
def HoldsNumber (env : Environment) (name : String) (n : Nat) : Prop :=
  ∃ raw, env.get? name = some raw ∧ Spells raw n

/-- The variable holds a directory: any text but the empty one, as it stands. -/
def HoldsDirectory (env : Environment) (name : String) (dir : Path) : Prop :=
  ∃ raw, env.get? name = some raw ∧ raw ≠ "" ∧ dir = .ofString raw

theorem holdsNumber_iff {env : Environment} {name : String} {n : Nat} :
    HoldsNumber env name n ↔ (setting env name).number? = some n := by
  rw [HoldsNumber, ← setting_eq_number_iff]
  cases setting env name <;> simp [Setting.number?]

theorem holdsDirectory_iff {env : Environment} {name : String} {dir : Path} :
    HoldsDirectory env name dir ↔
      ((env.get? name).filter (· ≠ "")).map Path.ofString = some dir := by
  simp only [HoldsDirectory, Option.map_eq_some_iff, Option.filter_eq_some_iff,
    decide_eq_true_eq, and_assoc, eq_comm (a := dir)]

end Configuration

namespace CommandLine

open CommandExpr.Configuration Evaluator

variable {env : Environment} {o : Options}

theorem layered_captureCap (n : Nat) :
    Layered o.captureCap (HoldsNumber env captureCapVariable) (16 * 1024) n ↔
      n = (settings env o).captureCap :=
  layered_iff fun _ => holdsNumber_iff

theorem layered_relayDir (dir : Path) :
    Layered o.relayDir (HoldsDirectory env relayDirVariable) ⟨[Path.dot]⟩ dir ↔
      dir = (settings env o).relayDir := by
  rw [layered_iff fun _ => holdsDirectory_iff]
  simp only [settings, override, ofEnvironment]
  cases (env.get? relayDirVariable).filter (· ≠ "") <;> rfl

theorem layered_timeout (timeout : Option Nat) :
    Layered (o.timeout.map some)
        (fun t => ∃ ms, t = some ms ∧ HoldsNumber env timeoutVariable ms) none timeout ↔
      timeout = (settings env o).timeout := by
  have husable : ∀ t : Option Nat, (∃ ms, t = some ms ∧ HoldsNumber env timeoutVariable ms) ↔
      (setting env timeoutVariable).number?.map some = some t := by
    intro t
    simp only [holdsNumber_iff, Option.map_eq_some_iff, eq_comm (a := t), and_comm]
  rw [layered_iff husable]
  simp only [settings, override, ofEnvironment]
  cases o.timeout <;> cases (setting env timeoutVariable).number? <;> rfl

/-- What is told of the settings is a warning for each variable passed over, once. -/
theorem count_warnings {name raw : String} (h : PassesOver env name raw) :
    (warnings env).count (.notice (.unusableVariable name raw)) = 1 := by
  have hinj : Function.Injective fun told : String × String =>
      Message.notice (.unusableVariable told.1 told.2) := by
    rintro ⟨name, raw⟩ ⟨name', raw'⟩ heq
    obtain ⟨rfl, rfl⟩ := Notice.unusableVariable.inj (Message.notice.inj heq)
    rfl
  exact List.count_eq_one_of_mem ((nodup_warnings env).map hinj)
    (List.mem_map_of_mem (mem_warnings_iff.mpr h))

theorem mem_warnings {m : Message} (hm : m ∈ warnings env) :
    ∃ name raw, m = .notice (.unusableVariable name raw) ∧ PassesOver env name raw := by
  obtain ⟨⟨name, raw⟩, hmem, rfl⟩ := List.mem_map.mp hm
  exact ⟨name, raw, rfl, mem_warnings_iff.mp hmem⟩

/-- How an environment and a command line are made into settings. -/
structure Configures (h : Host σ) (env : Environment) (o : Options) (s : Session σ) :
    Prop where
  /-- Every setting is what its layers make it, and nothing else. -/
  captureCap (n : Nat) :
    Layered o.captureCap (HoldsNumber env captureCapVariable) (16 * 1024) n ↔
      n = (settings env o).captureCap
  relayDir (dir : Path) :
    Layered o.relayDir (HoldsDirectory env relayDirVariable) ⟨[Path.dot]⟩ dir ↔
      dir = (settings env o).relayDir
  timeout (timeout : Option Nat) :
    Layered (o.timeout.map some)
        (fun t => ∃ ms, t = some ms ∧ HoldsNumber env timeoutVariable ms) none timeout ↔
      timeout = (settings env o).timeout
  /-- A setting is the same whatever the variables and options of the others are. -/
  captureCap_alone {env' : Environment} {o' : Options} :
    env'.get? captureCapVariable = env.get? captureCapVariable →
      o'.captureCap = o.captureCap →
        (settings env' o').captureCap = (settings env o).captureCap
  relayDir_alone {env' : Environment} {o' : Options} :
    env'.get? relayDirVariable = env.get? relayDirVariable → o'.relayDir = o.relayDir →
      (settings env' o').relayDir = (settings env o).relayDir
  timeout_alone {env' : Environment} {o' : Options} :
    env'.get? timeoutVariable = env.get? timeoutVariable → o'.timeout = o.timeout →
      (settings env' o').timeout = (settings env o).timeout
  /-- The settings of the environment are made with the warnings told, whatever the options
  are, … -/
  configure : (configure h env).on s = (.ofEnvironment env, s.saying h (warnings env))
  /-- … and the words of a command line are evaluated with the options in their place. -/
  evaluate {e : Expression} : Words.parse o.isTyped o.words = .ok e →
    (evaluateWords h env o).on s =
      match ((ofConfiguration (settings env o)).evaluate h e).on
        (s.saying h (.notice (.options o) :: warnings env)) with
      | (.error f, t) => (failureCode, t.saying h (f.diagnostic.map .line))
      | (.ok output, t) => (0, t.saying h (report o output))
  /-- For each variable passed over there is one warning, … -/
  told {name raw : String} : PassesOver env name raw →
    (Notice.unusableVariable name raw).level = .warn ∧
      (warnings env).count (.notice (.unusableVariable name raw)) = 1
  /-- … and there is nothing else. -/
  only {m : Message} : m ∈ warnings env →
    ∃ name raw, m = .notice (.unusableVariable name raw) ∧ PassesOver env name raw

/-- **Every setting is the option, or else what its variable can be used for, or else the
default**, and every number that cannot be read is told once. -/
theorem configures (h : Host σ) (env : Environment) (o : Options) (s : Session σ) :
    Configures h env o s where
  captureCap := layered_captureCap
  relayDir := layered_relayDir
  timeout := layered_timeout
  captureCap_alone hvariable hoption := by
    simp only [settings, override, ofEnvironment, setting, hvariable, hoption]
  relayDir_alone hvariable hoption := by
    simp only [settings, override, ofEnvironment, hvariable, hoption]
  timeout_alone hvariable hoption := by
    simp only [settings, override, ofEnvironment, setting, hvariable, hoption]
  configure := on_configure h env s
  evaluate hparse := on_evaluateWords_ok hparse h s
  told hpasses := ⟨rfl, count_warnings hpasses⟩
  only := mem_warnings

/-- A sign alone is passed over, blanks are not, and an option leaves the warning. -/
example :
    let env := [("SHEXPR_CAPTURE_CAP", "+"), ("SHEXPR_TIMEOUT_MS", " \t")]
    settings env { captureCap := some 7 } = { captureCap := 7 } ∧
      warnings env = [.notice (.unusableVariable "SHEXPR_CAPTURE_CAP" "+")] := by
  decide

end CommandLine

end CommandExpr
