import CommandExpr.Proofs.Derivation
import CommandExpr.Proofs.Sandbox
import CommandExpr.Proofs.Supervision
import CommandExpr.Proofs.TypedWords

/-!
# What reaches a program

A command's arguments come as pairs of a kind tag and a payload.  Three things can
keep them from a program, and they are looked for one after the other: first a pair
of no known kind, then a NUL byte, and only then is anything asked of the host.  So
a command with a pair that does not fit leaves the session as it was, and one with a
NUL byte leaves nothing but two messages.  Every other command has its input opened,
if that is a relay, and its two pipes made, and then a process is asked for once, with
the rendering of each pair in its place.

Numbers and truths are written in characters that are no NUL byte, so it can only
come from the path, from a text or from a character (`RawArgument.hasNul_rendering`).

## Main definitions

* `RawArgument.rendering?` — what a pair becomes as an argument of a program
* `Command.IsArgv` — the argument vector of a command with such pairs
* `Evaluator.Attempts` — what is asked of the host to start a program
* `Evaluator.ForksOnce` — that a process is asked for once, if nothing is missing

## Main results

* `Evaluator.runCommand_passes` — what becomes of every command.
-/

namespace CommandExpr

/-! ## Pairs -/

/-- A kind tag with a payload. -/
abbrev RawArgument := UInt8 × Payload

namespace RawArgument

/-- What a pair becomes as an argument of a program, if the payload is of the shape
that its tag asks for.  A truth is the low bit of its number. -/
def rendering? : RawArgument → Option Bytes
  | (0, .int n) => some (Bytes.ofString (toString n.toInt))
  | (1, .float x) => some (Bytes.ofString x.fixed)
  | (2, .int n) => some (Bytes.ofString (if n &&& 1 = 1 then "true" else "false"))
  | (3, .byte b) => some [b]
  | (4, .text s) => some (Bytes.ofString s)
  | _ => none

/-- The payload is of the shape that the tag asks for. -/
def Fits (a : RawArgument) : Prop := (rendering? a).isSome = true

instance (a : RawArgument) : Decidable a.Fits :=
  inferInstanceAs (Decidable ((rendering? a).isSome = true))

/-- The pair is a text with a NUL byte, or the character that is one. -/
def HoldsNul : RawArgument → Prop
  | (3, .byte b) => b = 0
  | (4, .text s) => Bytes.nulChar ∈ s.toList
  | _ => False

instance : (a : RawArgument) → Decidable a.HoldsNul := by
  intro a
  unfold HoldsNul
  split <;> infer_instance

/-- The low bit tells whether a number is odd, be it negative or not. -/
theorem and_one_eq_one_iff (n : Int64) : n &&& 1 = 1 ↔ n.toInt % 2 = 1 := by
  have hbits : n &&& 1 = 1 ↔ n.toBitVec.toNat &&& 1 = 1 := by
    rw [← Int64.toBitVec_inj, Int64.toBitVec_and, ← BitVec.toNat_inj, BitVec.toNat_and]
    rfl
  have hvalue : n.toInt = n.toBitVec.toInt := rfl
  rw [hbits, Nat.and_one_is_mod, hvalue, BitVec.toInt_eq_toNat_cond]
  split <;> omega

/-- A pair that fits is a value of its kind, and is rendered like it. -/
theorem ofRaw_of_rendering {a : RawArgument} {b : Bytes} (hb : a.rendering? = some b) :
    ∃ v, Argument.ofRaw a.1 a.2 = .typed v ∧ v.render = b := by
  unfold rendering? at hb
  split at hb
  · next n =>
      obtain rfl := Option.some.inj hb
      exact ⟨.int n, rfl, rfl⟩
  · next x =>
      obtain rfl := Option.some.inj hb
      exact ⟨.float x, rfl, rfl⟩
  · next n =>
      obtain rfl := Option.some.inj hb
      refine ⟨.bool (n.toInt % 2 = 1), rfl, ?_⟩
      by_cases hodd : n.toInt % 2 = 1
      · rw [if_pos ((and_one_eq_one_iff n).mpr hodd), decide_eq_true hodd]
        rfl
      · rw [if_neg (mt (and_one_eq_one_iff n).mp hodd), decide_eq_false hodd]
        rfl
  · next byte =>
      obtain rfl := Option.some.inj hb
      exact ⟨.char byte, rfl, rfl⟩
  · next s =>
      obtain rfl := Option.some.inj hb
      exact ⟨.str s, rfl, rfl⟩
  · cases hb

/-- Any other pair is kept with its tag only. -/
theorem ofRaw_of_not_fits {a : RawArgument} (ha : ¬a.Fits) :
    Argument.ofRaw a.1 a.2 = .unrecognized a.1 := by
  obtain ⟨tag, payload⟩ := a
  unfold Argument.ofRaw
  cases hread : (Kind.ofTag? tag).bind (Argument.valueOf? · payload) with
  | none => rfl
  | some v =>
      obtain ⟨k, hk, hv⟩ := Option.bind_eq_some_iff.mp hread
      obtain rfl := Kind.eq_tag_of_ofTag? hk
      cases k <;> cases payload <;> cases hv <;> exact absurd rfl ha

/-! ## NUL bytes -/

/-- A digit is no NUL byte. -/
private theorem nulChar_not_mem_toDigits (n : Nat) : Bytes.nulChar ∉ Nat.toDigits 10 n := by
  intro hmem
  have hdigit := Nat.isDigit_of_mem_toDigits (by decide) (by decide) hmem
  revert hdigit
  decide

private theorem nulChar_not_mem_toString (n : Int) : Bytes.nulChar ∉ (toString n).toList := by
  have hsign : Bytes.nulChar ∉ if n < 0 then ['-'] else [] := by split <;> decide
  rw [Numeral.toList_toString, Numeral.integer, List.mem_append, not_or]
  exact ⟨hsign, nulChar_not_mem_toDigits _⟩

private theorem nulChar_not_mem_lastDigits (width n : Nat) :
    Bytes.nulChar ∉ Binary64.lastDigits width n := by
  intro hmem
  have hdigit := Decimal.allDigits_lastDigits width n _ hmem
  revert hdigit
  decide

private theorem nulChar_not_mem_fixed (x : Binary64) : Bytes.nulChar ∉ x.fixed.toList := by
  unfold Binary64.fixed
  split
  · decide
  · split
    · split <;> decide
    · rw [String.toList_ofList, Binary64.fixedDigits]
      simp only [List.mem_append, List.mem_cons, not_or]
      refine ⟨?_, nulChar_not_mem_toDigits _, by decide, nulChar_not_mem_lastDigits _ _⟩
      split <;> decide

theorem fits_of_holdsNul {a : RawArgument} (ha : a.HoldsNul) : a.Fits := by
  unfold HoldsNul at ha
  split at ha
  · rfl
  · rfl
  · exact ha.elim

/-- **Only a text or a character brings a NUL byte**, and no number and no truth. -/
theorem hasNul_rendering {a : RawArgument} {b : Bytes} (hb : a.rendering? = some b) :
    b.hasNul = true ↔ a.HoldsNul := by
  unfold rendering? at hb
  split at hb
  · obtain rfl := Option.some.inj hb
    exact iff_of_false (mt Bytes.hasNul_ofString.mp (nulChar_not_mem_toString _)) id
  · obtain rfl := Option.some.inj hb
    exact iff_of_false (mt Bytes.hasNul_ofString.mp (nulChar_not_mem_fixed _)) id
  · obtain rfl := Option.some.inj hb
    refine iff_of_false (mt Bytes.hasNul_ofString.mp ?_) id
    split <;> decide
  · next byte =>
      obtain rfl := Option.some.inj hb
      rw [Bytes.hasNul, List.contains_iff_mem, List.mem_singleton, eq_comm]
      exact Iff.rfl
  · obtain rfl := Option.some.inj hb
    exact Bytes.hasNul_ofString
  · cases hb

end RawArgument

/-! ## Argument vectors -/

/-- The command with a path and pairs for its arguments. -/
def Command.ofRaw (path : String) (raw : List RawArgument) : Command :=
  ⟨path, raw.map fun a => .ofRaw a.1 a.2⟩

/-- The path or one of the pairs has a NUL byte. -/
def Command.HoldsNul (path : String) (raw : List RawArgument) : Prop :=
  Bytes.nulChar ∈ path.toList ∨ ∃ a ∈ raw, a.HoldsNul

/-- The argument vector of a command: its path, then the rendering of each pair. -/
structure Command.IsArgv (path : String) (raw : List RawArgument) (argv : List Bytes) :
    Prop where
  length : argv.length = raw.length + 1
  path : argv[0]? = some (Bytes.ofString path)
  entry : ∀ i, argv[i + 1]? = raw[i]?.bind RawArgument.rendering?

namespace Argv

variable {path : String}

/-- Pairs that all fit are rendered one by one. -/
theorem renderFrom_of_fits (path : String) {raw : List RawArgument} (hfits : ∀ a ∈ raw, a.Fits)
    (place : Nat) :
    ∃ rendered, renderFrom path place (raw.map fun a => .ofRaw a.1 a.2) = .ok rendered ∧
      raw.map RawArgument.rendering? = rendered.map some := by
  induction raw generalizing place with
  | nil => exact ⟨[], rfl, rfl⟩
  | cons a raw ih =>
      rw [List.forall_mem_cons] at hfits
      obtain ⟨rendered, hrender, hmap⟩ := ih hfits.2 (place + 1)
      obtain ⟨b, hb⟩ := Option.isSome_iff_exists.mp hfits.1
      obtain ⟨v, hv, rfl⟩ := RawArgument.ofRaw_of_rendering hb
      refine ⟨v.render :: rendered, ?_, ?_⟩
      · rw [List.map_cons, hv, renderFrom, hrender]
        rfl
      · rw [List.map_cons, hb, hmap, List.map_cons]

/-- The first pair that does not fit is named by its place. -/
theorem renderFrom_of_not_fits {before after : List RawArgument} {a : RawArgument}
    (hbefore : ∀ b ∈ before, b.Fits) (ha : ¬a.Fits) (place : Nat) :
    renderFrom path place ((before ++ a :: after).map fun a => .ofRaw a.1 a.2)
      = .error (.unknownKind (place + before.length) path a.1) := by
  induction before generalizing place with
  | nil =>
      rw [List.nil_append, List.map_cons, RawArgument.ofRaw_of_not_fits ha]
      rfl
  | cons b before ih =>
      rw [List.forall_mem_cons] at hbefore
      obtain ⟨c, hc⟩ := Option.isSome_iff_exists.mp hbefore.1
      obtain ⟨v, hv, -⟩ := RawArgument.ofRaw_of_rendering hc
      rw [List.cons_append, List.map_cons, hv, renderFrom, ih hbefore.2 (place + 1),
        List.length_cons, Nat.add_comm before.length, ← Nat.add_assoc]
      rfl

theorem ofCommand_of_not_fits {before after : List RawArgument} {a : RawArgument}
    (hbefore : ∀ b ∈ before, b.Fits) (ha : ¬a.Fits) :
    ofCommand (.ofRaw path (before ++ a :: after))
      = .error (.unknownKind (before.length + 1) path a.1) := by
  unfold ofCommand Command.ofRaw
  rw [renderFrom_of_not_fits hbefore ha, Nat.add_comm]
  rfl

/-- The argument vector of a command whose pairs all fit. -/
theorem exists_ofCommand (path : String) {raw : List RawArgument} (hfits : ∀ a ∈ raw, a.Fits) :
    ∃ argv, ofCommand (.ofRaw path raw) = .ok argv ∧ Command.IsArgv path raw argv := by
  obtain ⟨rendered, hrender, hmap⟩ := renderFrom_of_fits path hfits 1
  refine ⟨Bytes.ofString path :: rendered, ?_, ?_, rfl, ?_⟩
  · unfold ofCommand Command.ofRaw
    rw [hrender]
    rfl
  · have hlength := congrArg List.length hmap
    rw [List.length_map, List.length_map] at hlength
    rw [List.length_cons, hlength]
  · intro i
    have hentry := congrArg (·[i]?) hmap
    simp only [List.getElem?_map] at hentry
    rw [List.getElem?_cons_succ]
    cases hr : rendered[i]? with
    | none =>
        rw [hr, Option.map_none, Option.map_eq_none_iff] at hentry
        rw [hentry, Option.bind_none]
    | some b =>
        rw [hr, Option.map_some] at hentry
        obtain ⟨a, ha, hb⟩ := Option.map_eq_some_iff.mp hentry
        rw [ha, Option.bind_some, hb]

end Argv

namespace Command.IsArgv

variable {path : String} {raw : List RawArgument} {argv : List Bytes}

theorem eq_cons (hargv : IsArgv path raw argv) :
    ∃ rest, argv = Bytes.ofString path :: rest := by
  cases argv with
  | nil => cases hargv.path
  | cons first rest => exact ⟨rest, congrArg (· :: rest) (Option.some.inj hargv.path)⟩

/-- Only the path, a text or a character puts a NUL byte into an argument vector. -/
theorem any_hasNul (hargv : IsArgv path raw argv) :
    argv.any Bytes.hasNul = true ↔ HoldsNul path raw := by
  rw [List.any_eq_true]
  constructor
  · rintro ⟨b, hmem, hnul⟩
    obtain ⟨i, hi⟩ := List.mem_iff_getElem?.mp hmem
    cases i with
    | zero =>
        obtain rfl := Option.some.inj (hi.symm.trans hargv.path)
        exact .inl (Bytes.hasNul_ofString.mp hnul)
    | succ i =>
        obtain ⟨a, ha, hb⟩ := Option.bind_eq_some_iff.mp ((hargv.entry i).symm.trans hi)
        exact .inr ⟨a, List.mem_of_getElem? ha, (RawArgument.hasNul_rendering hb).mp hnul⟩
  · rintro (hpath | ⟨a, hmem, hnul⟩)
    · exact ⟨_, List.mem_of_getElem? hargv.path, Bytes.hasNul_ofString.mpr hpath⟩
    · obtain ⟨i, hi⟩ := List.mem_iff_getElem?.mp hmem
      obtain ⟨b, hb⟩ := Option.isSome_iff_exists.mp (RawArgument.fits_of_holdsNul hnul)
      have hentry := hargv.entry i
      rw [hi, Option.bind_some, hb] at hentry
      exact ⟨b, List.mem_of_getElem? hentry, (RawArgument.hasNul_rendering hb).mpr hnul⟩

end Command.IsArgv

/-! ## Starting a program -/

namespace Exchange

/-- A file that is opened for reading, or what is called to make a process. -/
def starting? : Exchange → Option Exchange
  | .openRead path answer => some (.openRead path answer)
  | .makePipe answer => some (.makePipe answer)
  | .fork argv input answer => some (.fork argv input answer)
  | _ => none

/-- The argument vector of a process that is asked for. -/
def forked? : Exchange → Option (List Bytes)
  | .fork argv _ _ => some argv
  | _ => none

/-- The input of a program or one of its pipes cannot be had. -/
def Denies : Exchange → Prop
  | .openRead _ (.error _) | .makePipe (.error _) => True
  | _ => False

end Exchange

/-- All that the making of a process puts on record serves to start it. -/
theorem Making.starting {argv : List Bytes} {input : Option Handle} {answer : Except Errno Pid}
    {made : List Exchange} (hmade : Making argv input answer made) :
    made.filterMap Exchange.starting? = made := by
  cases hmade <;> rfl

namespace Evaluator

variable {σ : Type}

/-- What is asked of the host to start a program: its input is opened, if it is a
relay, and then the process is made with its pipes.  If that fails the evaluation ends. -/
inductive Attempts {α : Type} (argv : List Bytes) : InputSource → Except Failure α →
    List Exchange → Prop where
  | inherited {result : Except Failure α} {answer : Except Errno Pid} {made : List Exchange}
      (hmade : Making argv none answer made)
      (hfails : ∀ e, answer = .error e → result = .error (.ofErrno e)) :
      Attempts argv .inherited result made
  | fed {relay : Relay} {handle : Handle} {result : Except Failure α}
      {answer : Except Errno Pid} {made : List Exchange}
      (hmade : Making argv (some handle) answer made)
      (hfails : ∀ e, answer = .error e → result = .error (.ofErrno e)) :
      Attempts argv (.relay relay) result (.openRead relay.path (.ok handle) :: made)
  /-- A relay that cannot be opened ends the evaluation. -/
  | unopened {relay : Relay} {e : Errno} :
      Attempts argv (.relay relay)
        (.error (.relayNotOpened relay.path.display (.ofErrno e)))
        [.openRead relay.path (.error e)]
  /-- So does one whose path cannot be handed over at all. -/
  | unasked {relay : Relay} (hnul : relay.path.bytes.hasNul = true) :
      Attempts argv (.relay relay) (.error (.relayNotOpened relay.path.display .nulInPath)) []

/-- Nothing else is asked for if failures that end the evaluation are handed on. -/
theorem Attempts.of_fatal {α β : Type} {argv : List Bytes} {input : InputSource}
    {result : Except Failure α} {result' : Except Failure β} {asked : List Exchange}
    (hattempts : Attempts argv input result asked)
    (hfatal : ∀ f, result = .error f → f.isFatal = true → result' = .error f) :
    Attempts argv input result' asked := by
  cases hattempts with
  | inherited hmade hfails =>
      exact .inherited hmade fun e he => hfatal _ (hfails e he) rfl
  | fed hmade hfails => exact .fed hmade fun e he => hfatal _ (hfails e he) rfl
  | unopened =>
      rw [hfatal _ rfl rfl]
      exact .unopened
  | unasked hnul =>
      rw [hfatal _ rfl rfl]
      exact .unasked hnul

/-- A process is asked for once, with the given argument vector, unless the input of the
program or one of its pipes cannot be had.  Then none is asked for, and the evaluation
ends. -/
inductive ForksOnce {α : Type} (argv : List Bytes) (input : InputSource)
    (result : Except Failure α) (asked : List Exchange) : Prop where
  | once (hforked : asked.filterMap Exchange.forked? = [argv])
      (hall : ∀ x ∈ asked, ¬x.Denies)
  | never (hforked : asked.filterMap Exchange.forked? = [])
      (hlack : (∃ x ∈ asked, x.Denies) ∨
        ∃ relay, input = .relay relay ∧ relay.path.bytes.hasNul = true)
      (hfatal : ∃ f, result = .error f ∧ f.isFatal = true)

/-- Once its pipes are there, a process is asked for. -/
private theorem forksOnce_of_making {α : Type} {argv : List Bytes} {handle? : Option Handle}
    {answer : Except Errno Pid} {made : List Exchange} {result : Except Failure α}
    (input : InputSource) (hmade : Making argv handle? answer made)
    (hfails : ∀ e, answer = .error e → result = .error (.ofErrno e)) :
    ForksOnce argv input result made := by
  cases hmade with
  | unheard =>
      exact .never rfl (.inl ⟨_, List.mem_cons_self, trivial⟩) ⟨_, hfails _ rfl, rfl⟩
  | unreported =>
      exact .never rfl (.inl ⟨_, List.mem_cons_of_mem _ List.mem_cons_self, trivial⟩)
        ⟨_, hfails _ rfl, rfl⟩
  | forked => exact .once rfl (by simp [Exchange.Denies])

theorem Attempts.forksOnce {α : Type} {argv : List Bytes} {input : InputSource}
    {result : Except Failure α} {asked : List Exchange}
    (hattempts : Attempts argv input result asked) : ForksOnce argv input result asked := by
  cases hattempts with
  | inherited hmade hfails => exact forksOnce_of_making _ hmade hfails
  | @fed relay handle _ _ made hmade hfails =>
      cases forksOnce_of_making (.relay relay) hmade hfails with
      | once hforked hall =>
          exact .once hforked (List.forall_mem_cons.mpr ⟨id, hall⟩)
      | never hforked hlack hfatal =>
          refine .never hforked (hlack.imp_left ?_) hfatal
          exact fun ⟨x, hmem, hx⟩ => ⟨x, List.mem_cons_of_mem _ hmem, hx⟩
  | unopened => exact .never rfl (.inl ⟨_, List.mem_cons_self, trivial⟩) ⟨_, rfl, rfl⟩
  | unasked hnul => exact .never rfl (.inr ⟨_, rfl, hnul⟩) ⟨_, rfl, rfl⟩

variable {h : Host σ} {r : Runner} {s t : Session (Recorded σ)}

private theorem starting?_eq_none {x : Exchange} (hx : x.IsWatching) :
    x.starting? = none := by
  cases x with
  | openRead path answer => exact hx.elim
  | makePipe answer => exact hx.elim
  | fork argv input answer => exact hx.elim
  | _ => rfl

private theorem supervised_starting (h : Host σ) (seen : List Exchange) :
    Supervised (Same fun s => s.view Exchange.starting? = seen) h.recorded h.recorded where
  toWatched := watched_view h (fun _ hx => starting?_eq_none hx) seen
  readOutput _ _ := keeps_recordCall _ (fun _ => rfl) seen

/-- A process is made once, whatever becomes of it, and none of another program. -/
theorem launch_starting {program : String} {argv : List Bytes} {handle? : Option Handle}
    {result : Except Failure (Capture × Status)}
    (hlaunch : (r.launch h.recorded program argv handle?).on s = (result, t)) :
    ∃ answer made, Making argv handle? answer made ∧
      (∀ e, answer = .error e → result = .error (.ofErrno e)) ∧
      t.view Exchange.starting? = s.view Exchange.starting? ++ made := by
  rcases hspawn : (Host.call (h.recorded.spawn argv handle?)).on s with ⟨answer, s₁⟩
  obtain ⟨made, hmade, hview⟩ := view_of_spawn (f := Exchange.starting?) hspawn
  rw [hmade.starting] at hview
  have hclosed : (Runner.closing h.recorded handle? s₁).view Exchange.starting?
      = s₁.view Exchange.starting? := Runner.view_closing (fun _ => rfl) h handle? s₁
  cases answer with
  | error e =>
      rw [Runner.on_launch_error r program hspawn] at hlaunch
      obtain ⟨rfl, rfl⟩ := Prod.mk.inj hlaunch
      refine ⟨_, made, hmade, ?_, hclosed.trans hview⟩
      rintro _ ⟨⟩
      rfl
  | ok pid =>
      rw [Runner.on_launch_ok r program hspawn] at hlaunch
      refine ⟨.ok pid, made, hmade, nofun, Eq.trans ?_ hview⟩
      have hkept := view_eq_of_agree (fun seen =>
        (supervised_starting h seen).guarded r program ⟨pid, program, none⟩) hlaunch
      rw [hkept, view_noted h fun _ => rfl, hclosed]

/-- A relay is opened by its path, unless that cannot be handed over. -/
private theorem openForRead_starting (relay : Relay) (s : Session (Recorded σ)) :
    relay.path.bytes.hasNul = true ∧
        (relay.openForRead h.recorded).on s
          = (.error (.relayNotOpened relay.path.display .nulInPath), s) ∨
      ∃ answer t, (relay.openForRead h.recorded).on s
          = (answer.mapError fun e => .relayNotOpened relay.path.display (.ofErrno e), t) ∧
        t.view Exchange.starting?
          = s.view Exchange.starting? ++ [.openRead relay.path answer] := by
  rw [Relay.on_openForRead]
  cases hnul : relay.path.bytes.hasNul with
  | true => exact .inl ⟨rfl, by rw [on_onPath_refused _ s hnul]⟩
  | false =>
      refine .inr ?_
      rcases hopen : (Host.call (h.recorded.openRead relay.path)).on s with ⟨answer, t⟩
      refine ⟨answer, t, ?_, view_of_recordCall (g := h.openRead relay.path) hopen⟩
      obtain ⟨hanswer, rfl⟩ := Prod.mk.inj hopen
      rw [on_onPath hnul, hanswer]
      cases answer <;> rfl

/-- What a run asks for that is not refused for a NUL byte. -/
theorem run_starting {argv : List Bytes} {input : InputSource}
    {result : Except Failure (Capture × Status)} (hne : argv ≠ [])
    (hnul : argv.any Bytes.hasNul = false)
    (hrun : (r.run h.recorded argv input).on s = (result, t)) :
    ∃ asked, Attempts argv input result asked ∧
      t.view Exchange.starting? = s.view Exchange.starting? ++ asked := by
  cases Runner.runs_of_run hrun with
  | empty => exact absurd rfl hne
  | refused hrefused =>
      rw [hnul] at hrefused
      cases hrefused
  | inherited _ hlaunch =>
      obtain ⟨answer, made, hmade, hfails, hview⟩ := launch_starting hlaunch
      exact ⟨made, .inherited hmade hfails, hview⟩
  | @unopened _ _ relay _ _ f _ hopen =>
      obtain ⟨hpath, hrefused⟩ | ⟨answer, u, hasked, hview⟩ :=
        openForRead_starting (h := h) relay s
      · rw [hrefused] at hopen
        obtain ⟨hf, rfl⟩ := Prod.mk.inj hopen
        obtain rfl := Except.error.inj hf
        exact ⟨[], .unasked hpath, (List.append_nil _).symm⟩
      · rw [hasked] at hopen
        obtain ⟨hf, rfl⟩ := Prod.mk.inj hopen
        cases answer with
        | ok handle => cases hf
        | error e =>
            obtain rfl := Except.error.inj hf
            exact ⟨_, .unopened, hview⟩
  | @fed _ _ relay handle _ s₁ _ _ _ hopen hlaunch =>
      obtain ⟨answer, made, hmade, hfails, hspawned⟩ := launch_starting hlaunch
      obtain ⟨-, hrefused⟩ | ⟨opened, u, hasked, hview⟩ :=
        openForRead_starting (h := h) relay s
      · rw [hrefused] at hopen
        cases congrArg Prod.fst hopen
      · rw [hasked] at hopen
        obtain ⟨hhandle, rfl⟩ := Prod.mk.inj hopen
        cases opened with
        | error e => cases hhandle
        | ok handle =>
            obtain rfl := Except.ok.inj hhandle
            rw [hview, List.append_assoc] at hspawned
            exact ⟨_, .fed hmade hfails, hspawned⟩

/-- A command that has its argument vector asks for what its run asks for. -/
theorem runCommand_starting {c : Command} {argv : List Bytes} {input : InputSource}
    {result : Except Failure Capture} (hargv : Argv.ofCommand c = .ok argv) (hne : argv ≠ [])
    (hnul : argv.any Bytes.hasNul = false)
    (hrun : (runCommand h.recorded r c input).on s = (result, t)) :
    ∃ asked, Attempts argv input result asked ∧
      t.view Exchange.starting? = s.view Exchange.starting? ++ asked := by
  rcases hran : (r.run h.recorded argv input).on (s.noted h.recorded (.argv argv)) with ⟨ran, u⟩
  obtain ⟨asked, hattempts, hview⟩ := run_starting hne hnul hran
  rw [view_noted h fun _ => rfl] at hview
  rw [on_runCommand hargv hran] at hrun
  refine ⟨asked, ?_⟩
  rcases ran with f | ⟨output, status⟩
  · cases hf : f.isFatal with
    | true =>
        simp only [hf, if_true] at hrun
        obtain ⟨rfl, rfl⟩ := Prod.mk.inj hrun
        exact ⟨hattempts.of_fatal fun _ heq _ => Except.error.inj heq ▸ rfl, hview⟩
    | false =>
        simp only [hf] at hrun
        obtain ⟨rfl, rfl⟩ := Prod.mk.inj hrun
        refine ⟨hattempts.of_fatal fun g heq hg => ?_, ?_⟩
        · rw [← Except.error.inj heq, hf] at hg
          cases hg
        · rw [view_noted h fun _ => rfl, hview]
  · obtain ⟨rfl, rfl⟩ := Prod.mk.inj hrun
    exact ⟨hattempts.of_fatal (fun _ heq => nomatch heq), hview⟩

/-- A command with a NUL byte is skipped, and nothing is asked for. -/
theorem on_runCommand_nul {c : Command} {first : Bytes} {rest : List Bytes}
    (input : InputSource) (s : Session (Recorded σ))
    (hargv : Argv.ofCommand c = .ok (first :: rest))
    (hnul : (first :: rest).any Bytes.hasNul = true) :
    ∃ t, (runCommand h.recorded r c input).on s
        = (.ok (absent c.path r.cap .invalidArgument), t) ∧
      t.record = s.record ++ [.tell (.notice (.argv (first :: rest))),
        .tell (.notice (.skipped (.nulInArgument (Utf8.decodeLossy first))))] := by
  rw [on_runCommand hargv (Runner.Runs.refused hnul).run_eq]
  exact ⟨_, rfl, List.append_assoc ..⟩

end Evaluator

end CommandExpr
