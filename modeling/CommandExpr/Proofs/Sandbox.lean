import CommandExpr.Evaluator
import CommandExpr.Proofs.Discretion

/-!
# A machine whose programs are an oracle

A machine in the small: files by name, handles that stand somewhere in a file,
and programs that do all they do at once when they are started.  What that is
says an oracle, from the argument vector, the input and the files.  It may
leave any files behind, but the ones that the machine has made itself stay as
they are.

For every oracle the calls of the machine are lawful, so what is proved of
lawful hosts is not empty, and can be tried out.

## Main results

* `Sandbox.lawful` — the calls do to the files what they should.
* `Sandbox.orderly` — and programs do no more than the oracle says.
* `Sandbox.discreet` — what it says of all files but relays is all that they know.
-/

namespace CommandExpr

/-- What a program does. -/
structure Behaviour where
  /-- Why it cannot be started, if it cannot. -/
  failure : Option Errno := none
  /-- What it writes to its output. -/
  output : Bytes := []
  /-- The code that it returns. -/
  code : Int := 0
  /-- The files as it leaves them. -/
  files : Path → Option Bytes

/-- What all programs do, by their argument vectors, their input if they are
given one, and the files. -/
abbrev Oracle := List Bytes → Option Bytes → (Path → Option Bytes) → Behaviour

/-- An oracle's programs do the same whatever relays there are, and leave these as they
are. -/
structure Oracle.Ignores (oracle : Oracle) (store : RelayStore) : Prop where
  blind (argv : List Bytes) (input : Option Bytes) {f g : Path → Option Bytes} :
    (∀ path, ¬store.Names path → f path = g path) →
      (oracle argv input f).failure = (oracle argv input g).failure ∧
        (oracle argv input f).output = (oracle argv input g).output ∧
        (oracle argv input f).code = (oracle argv input g).code ∧
        ∀ path, ¬store.Names path →
          (oracle argv input f).files path = (oracle argv input g).files path
  keeps (argv : List Bytes) (input : Option Bytes) (f : Path → Option Bytes) {path : Path} :
    store.Names path → (oracle argv input f).files path = f path

namespace Sandbox

/-- A file. -/
structure Entry where
  /-- What it contains. -/
  bytes : Bytes
  /-- Has the machine made it itself? -/
  isOwn : Bool
  deriving DecidableEq

/-- The state of the machine. -/
structure State where
  /-- The files. -/
  files : Path → Option Entry
  /-- The open files, each with the place where its handle stands. -/
  cursors : Handle → Option (Path × Nat)
  /-- The next handle. -/
  next : Handle
  /-- What is left of the report of the last program. -/
  report : Bytes
  /-- What is left of its output. -/
  output : Bytes
  /-- The code that it returned. -/
  code : Int
  /-- What was written to the standard output. -/
  written : Bytes

namespace State

/-- What the files contain. -/
def contents (m : State) : Path → Option Bytes := Option.map Entry.bytes ∘ m.files

/-- The machine with an entry put in place of a file, or taken away. -/
def setting (m : State) (path : Path) (entry : Option Entry) : State :=
  { m with files := Function.update m.files path entry }

/-- A new handle that stands at the start of a file. -/
def opening (m : State) (path : Path) : Except Errno Handle × State :=
  (.ok m.next,
    { m with
      cursors := Function.update m.cursors m.next (some (path, 0))
      next := m.next + 1 })

/-- Bytes in a file from a place on, and the handle behind them. -/
def writing (m : State) (handle : Handle) (path : Path) (place : Nat)
    (entry : Entry) (bytes : Bytes) : Except Errno Unit × State :=
  let new := entry.bytes.take place ++ bytes ++ entry.bytes.drop (place + bytes.length)
  (.ok (),
    { m.setting path (some { entry with bytes := new }) with
      cursors := Function.update m.cursors handle (some (path, place + bytes.length)) })

/-- The input that a handle gives. -/
def inputOf (m : State) (handle : Handle) : Option Bytes := do
  let (path, place) ← m.cursors handle
  return (← m.contents path).drop place

/-- The files after a program has left some behind. -/
def afterwards (m : State) (left : Path → Option Bytes) (path : Path) : Option Entry :=
  match m.files path with
  | some ⟨bytes, true⟩ => some ⟨bytes, true⟩
  | _ => (left path).map (⟨·, false⟩)

/-- A program does what it does. -/
def start (oracle : Oracle) (m : State) (argv : List Bytes) (input : Option Handle) :
    State :=
  let b := oracle argv (input.bind m.inputOf) m.contents
  { m with
    files := m.afterwards b.files
    report := (b.failure.map Errno.toBytes).getD []
    output := b.output
    code := b.code }

end State

/-- How many answers a loop waits for. -/
def patience : Nat := 1000

/-- The calls of the machine. -/
def host (oracle : Oracle) : Host State where
  patience _ := patience
  createNew path m :=
    match m.files path with
    | some _ => (.error .alreadyExists, m)
    | none => (m.setting path (some ⟨[], true⟩)).opening path
  openRead path m :=
    match m.files path with
    | some _ => m.opening path
    | none => (.error .notFound, m)
  append handle bytes m :=
    match m.cursors handle with
    | some (path, place) =>
      match m.files path with
      | some entry => m.writing handle path place entry bytes
      | none => (.error .notFound, m)
    | none => (.error .badDescriptor, m)
  close handle m := { m with cursors := Function.update m.cursors handle none }
  remove path m :=
    match m.files path with
    | some _ => (.ok (), m.setting path none)
    | none => (.error .notFound, m)
  makePipe m := (.ok (), m)
  fork argv input m := (.ok 1, m.start oracle argv input)
  readReport _ count m := (.ok (m.report.take count), { m with report := m.report.drop count })
  readOutput _ count m := (.ok (m.output.take count), { m with output := m.output.drop count })
  pollOutput _ _ m := (.ok true, m)
  hangUp _ m := m
  wait _ _ m := (.ok (.exited m.code), m)
  kill _ _ m := (.ok (), m)
  now m := (0, m)
  sleep _ m := m
  writeOut bytes m := (.ok bytes.length, { m with written := m.written ++ bytes })
  tell _ m := m

/-- The files of the machine. -/
def files : Files State Path where
  entry path := path
  content := State.contents
  held m := {path | ∃ bytes, m.files path = some ⟨bytes, true⟩}
  cursor m := m.cursors

/-- The machine at the beginning, with some files that are not its own. -/
def initial (foreign : Path → Option Bytes) : State where
  files path := (foreign path).map (⟨·, false⟩)
  cursors _ := none
  next := 0
  report := []
  output := []
  code := 0
  written := []

private theorem contents_setting (m : State) (path : Path) (entry : Option Entry) :
    (m.setting path entry).contents
      = Function.update m.contents path (entry.map Entry.bytes) :=
  Function.comp_update _ _ _ _

/-- The machine's own files after one of them was made, … -/
private theorem held_setting_own (m : State) (path : Path) (bytes : Bytes) :
    files.held (m.setting path (some ⟨bytes, true⟩))
      = insert path (files.held m) := by
  ext other
  by_cases hother : other = path
  · simp [files, State.setting, hother]
  · simp [files, State.setting, hother]

/-- … one was removed, … -/
private theorem held_setting_none (m : State) (path : Path) :
    files.held (m.setting path none) = files.held m \ {path} := by
  ext other
  by_cases hother : other = path
  · simp [files, State.setting, hother]
  · simp [files, State.setting, hother]

/-- … or something was written into one. -/
private theorem held_setting_bytes {m : State} {path : Path} {entry : Entry}
    (hentry : m.files path = some entry) (bytes : Bytes) :
    files.held (m.setting path (some { entry with bytes })) = files.held m := by
  ext other
  by_cases hother : other = path
  · subst hother
    obtain ⟨old, isOwn⟩ := entry
    simp [files, State.setting, hentry]
  · simp [files, State.setting, hother]

theorem lawful (oracle : Oracle) (store : RelayStore) :
    files.Lawful (host oracle) store where
  exists_of_held := by
    rintro path m ⟨bytes, hbytes⟩
    simp [files, State.contents, hbytes]
  createNew_ok := by
    intro path handle m m' _ hcall
    simp only [host] at hcall
    split at hcall
    · simp at hcall
    · next hnone =>
        obtain ⟨hhandle, rfl⟩ := Prod.mk.inj hcall
        obtain rfl := Except.ok.inj hhandle
        refine ⟨?_, contents_setting m path _, held_setting_own m path [], ?_⟩
        · simp [files, State.contents, hnone]
        · exact Function.update_self _ _ _
  createNew_error := by
    intro path e m m' _ hcall
    simp only [host] at hcall
    split at hcall
    · obtain ⟨-, rfl⟩ := Prod.mk.inj hcall
      exact Files.Same.refl _ _
    · simp [State.opening] at hcall
  openRead_ok := by
    intro path handle m m' _ hcall
    simp only [host] at hcall
    split at hcall
    · obtain ⟨hhandle, rfl⟩ := Prod.mk.inj hcall
      obtain rfl := Except.ok.inj hhandle
      exact ⟨⟨rfl, rfl⟩, Function.update_self _ _ _⟩
    · simp at hcall
  openRead_error := by
    intro path e m m' _ hcall
    simp only [host] at hcall
    split at hcall
    · simp [State.opening] at hcall
    · obtain ⟨-, rfl⟩ := Prod.mk.inj hcall
      exact Files.Same.refl _ _
  append_ok := by
    intro handle path place old bytes m m' hcursor hcontent _ hcall
    change m.cursors handle = some (path, place) at hcursor
    obtain ⟨entry, hentry, rfl⟩ := Option.map_eq_some_iff.mp hcontent
    simp only [host, hcursor, hentry, State.writing] at hcall
    obtain ⟨-, rfl⟩ := Prod.mk.inj hcall
    exact ⟨contents_setting m path _, held_setting_bytes hentry _⟩
  append_error := by
    intro handle path place bytes e m m' hcursor hcall
    change m.cursors handle = some (path, place) at hcursor
    simp only [host, hcursor] at hcall
    split at hcall
    · simp [State.writing] at hcall
    · obtain ⟨-, rfl⟩ := Prod.mk.inj hcall
      exact ⟨fun _ _ => rfl, rfl⟩
  remove_ok := by
    intro path m m' _ hcall
    simp only [host] at hcall
    split at hcall
    · obtain ⟨-, rfl⟩ := Prod.mk.inj hcall
      exact ⟨contents_setting m path none, held_setting_none m path⟩
    · simp at hcall
  remove_error := by
    intro path e m m' _ hcall
    simp only [host] at hcall
    split at hcall
    · simp at hcall
    · obtain ⟨-, rfl⟩ := Prod.mk.inj hcall
      exact Files.Same.refl _ _
  close _ _ := ⟨rfl, rfl⟩
  now _ := ⟨rfl, rfl⟩
  writeOut _ _ := ⟨rfl, rfl⟩
  tell _ _ := ⟨rfl, rfl⟩
  cursor_tell _ _ := rfl

/-- What a program leaves of the files is what the oracle says, … -/
private theorem contents_start {oracle : Oracle} {drift : Drift Path}
    (hrefl : ∀ path content, drift path content content)
    (hdrift : ∀ argv input contents path,
      drift path (contents path) ((oracle argv input contents).files path))
    (m : State) (argv : List Bytes) (input : Option Handle) (path : Path) :
    drift path (m.contents path) ((m.start oracle argv input).contents path) := by
  have hleft := hdrift argv (input.bind m.inputOf) m.contents path
  have hcontents : m.contents path = (m.files path).map Entry.bytes := rfl
  change drift path _ ((m.afterwards _ path).map Entry.bytes)
  unfold State.afterwards
  rw [hcontents] at hleft ⊢
  generalize m.files path = before at hleft ⊢
  rcases before with _ | ⟨bytes, _ | _⟩
  · simpa [Function.comp_def] using hleft
  · simpa [Function.comp_def] using hleft
  · exact hrefl path (some bytes)

/-- … but for the machine's own, which stay. -/
private theorem held_start (oracle : Oracle) (m : State) (argv : List Bytes)
    (input : Option Handle) :
    files.held (m.start oracle argv input) = files.held m := by
  ext path
  change (∃ bytes, m.afterwards _ path = _) ↔ ∃ bytes, m.files path = _
  unfold State.afterwards
  rcases m.files path with _ | ⟨bytes, _ | _⟩
  · simp
  · simp
  · simp

/-- Programs that keep to the drift of the files are orderly. -/
theorem orderly {oracle : Oracle} {drift : Drift Path}
    (hrefl : ∀ path content, drift path content content)
    (htrans : ∀ {path a b c}, drift path a b → drift path b c → drift path a c)
    (hdrift : ∀ argv input contents path,
      drift path (contents path) ((oracle argv input contents).files path))
    (store : RelayStore) : files.Orderly (host oracle) store drift where
  refl := hrefl
  trans := htrans
  spawn argv input m :=
    ⟨held_start oracle m argv input, contents_start hrefl hdrift m argv input⟩
  readReport _ _ _ := ⟨rfl, fun path => hrefl path _⟩
  readOutput _ _ _ := ⟨rfl, fun path => hrefl path _⟩
  pollOutput _ _ _ := ⟨rfl, fun path => hrefl path _⟩
  hangUp _ _ := ⟨rfl, fun path => hrefl path _⟩
  wait _ _ _ := ⟨rfl, fun path => hrefl path _⟩
  kill _ _ _ := ⟨rfl, fun path => hrefl path _⟩
  sleep _ _ := ⟨rfl, fun path => hrefl path _⟩
  openRead path m := by
    simp only [host]
    cases m.files path <;> exact ⟨rfl, rfl⟩
  remove := by
    rintro path m - ⟨bytes, hbytes⟩
    simp only [files] at hbytes
    simp only [host, hbytes]

/-! ## Relays that programs do not look at -/

section Discreet

variable {oracle : Oracle} {store : RelayStore} {m m' : State}

/-- Files with the same content are both there or both not. -/
theorem files_of_contents {p q : Path} (hcontent : m.contents p = m'.contents q) :
    (m.files p = none ∧ m'.files q = none) ∨
      ∃ entry entry', m.files p = some entry ∧ m'.files q = some entry' ∧
        entry.bytes = entry'.bytes := by
  simp only [State.contents, Function.comp_apply] at hcontent
  rcases hs : m.files p with _ | entry <;> rcases ht : m'.files q with _ | entry'
  · exact Or.inl ⟨rfl, rfl⟩
  · simp [hs, ht] at hcontent
  · simp [hs, ht] at hcontent
  · rw [hs, ht] at hcontent
    exact Or.inr ⟨entry, entry', rfl, rfl, Option.some.inj hcontent⟩

/-- A handle at the start of a file gives all of it. -/
private theorem inputOf_start {path : Path} {handle : Handle}
    (hcursor : m.cursors handle = some (path, 0)) : m.inputOf handle = m.contents path := by
  simp only [State.inputOf, hcursor, Option.bind_eq_bind, Option.bind_some, List.drop_zero]
  cases m.contents path <;> rfl

/-- Nothing is written to the standard output by opening a file … -/
private theorem written_openRead (path : Path) :
    ((host oracle).openRead path m).2.written = m.written := by
  simp only [host]
  split <;> rfl

/-- … or by writing to one. -/
private theorem written_append (handle : Handle) (bytes : Bytes) :
    ((host oracle).append handle bytes m).2.written = m.written := by
  simp only [host]
  split
  · split <;> rfl
  · rfl

/-- Two states of the machine differ in relays, in open files and in what was written. -/
structure State.Resembles (store : RelayStore) (m m' : State) : Prop where
  files : ∀ path, ¬store.Names path → m.files path = m'.files path
  report : m.report = m'.report
  output : m.output = m'.output
  code : m.code = m'.code

namespace State.Resembles

theorem equivalence (store : RelayStore) : Equivalence (State.Resembles store) where
  refl _ := ⟨fun _ _ => rfl, rfl, rfl, rfl⟩
  symm h := ⟨fun path hpath => (h.files path hpath).symm, h.report.symm, h.output.symm,
    h.code.symm⟩
  trans h h' := ⟨fun path hpath => (h.files path hpath).trans (h'.files path hpath),
    h.report.trans h'.report, h.output.trans h'.output, h.code.trans h'.code⟩

/-- What is done to relays alone leaves the machine as it looks, … -/
theorem setting {p q : Path} (hp : store.Names p) (hq : store.Names q)
    (hm : m.Resembles store m') (entry entry' : Option Entry) :
    (m.setting p entry).Resembles store (m'.setting q entry') where
  files path hpath := by
    have hne : path ≠ p := fun heq => hpath (heq ▸ hp)
    have hne' : path ≠ q := fun heq => hpath (heq ▸ hq)
    change Function.update m.files p entry path = Function.update m'.files q entry' path
    rw [Function.update_of_ne hne, Function.update_of_ne hne']
    exact hm.files path hpath
  report := hm.report
  output := hm.output
  code := hm.code

/-- … and so does a program that is given the same input. -/
theorem start (ho : Oracle.Ignores oracle store) (hm : m.Resembles store m')
    (argv : List Bytes) {input input' : Option Handle}
    (hin : input.bind m.inputOf = input'.bind m'.inputOf) :
    (m.start oracle argv input).Resembles store (m'.start oracle argv input') := by
  have hcontents : ∀ path, ¬store.Names path → m.contents path = m'.contents path :=
    fun path hpath => congrArg (Option.map Entry.bytes) (hm.files path hpath)
  obtain ⟨hfailure, houtput, hcode, hfiles⟩ :=
    ho.blind argv (input'.bind m'.inputOf) hcontents
  refine ⟨fun path hpath => ?_, ?_, ?_, ?_⟩
  · change m.afterwards _ path = m'.afterwards _ path
    rw [State.afterwards, State.afterwards, hm.files path hpath, hin, hfiles path hpath]
  · simp only [State.start, hin, hfailure]
  · simp only [State.start, hin, houtput]
  · simp only [State.start, hin, hcode]

/-- A program does not know which relay it reads. -/
theorem start_relay (ho : Oracle.Ignores oracle store) (hm : m.Resembles store m')
    (argv : List Bytes) {p q : Path} {handle handle' : Handle}
    (hcursor : m.cursors handle = some (p, 0)) (hcursor' : m'.cursors handle' = some (q, 0))
    (hcontent : m.contents p = m'.contents q) :
    (m.start oracle argv (some handle)).Resembles store
      (m'.start oracle argv (some handle')) := by
  refine hm.start ho argv ?_
  rw [Option.bind_some, Option.bind_some, inputOf_start hcursor, inputOf_start hcursor',
    hcontent]

/-- Relays that contain the same are opened alike, … -/
theorem openRead (oracle : Oracle) {p q : Path} (hm : m.Resembles store m')
    (hcontent : m.contents p = m'.contents q) :
    SameFailure ((host oracle).openRead p m).1 ((host oracle).openRead q m').1 ∧
      ((host oracle).openRead p m).2.Resembles store ((host oracle).openRead q m').2 := by
  rcases files_of_contents hcontent with ⟨hs, ht⟩ | ⟨entry, entry', hs, ht, -⟩
  · simp only [host, hs, ht]
    exact ⟨.error _, hm⟩
  · simp only [host, hs, ht]
    exact ⟨.ok _ _, hm.files, hm.report, hm.output, hm.code⟩

/-- … and they contain the same after the same was written at one place of both. -/
theorem append (oracle : Oracle) {p q : Path} {handle handle' : Handle} {k : Nat}
    (bytes : Bytes) (hp : store.Names p) (hq : store.Names q) (hm : m.Resembles store m')
    (hcursor : m.cursors handle = some (p, k)) (hcursor' : m'.cursors handle' = some (q, k))
    (hcontent : m.contents p = m'.contents q) :
    ((host oracle).append handle bytes m).1 = ((host oracle).append handle' bytes m').1 ∧
      ((host oracle).append handle bytes m).2.Resembles store
        ((host oracle).append handle' bytes m').2 ∧
      ((host oracle).append handle bytes m).2.contents p
        = ((host oracle).append handle' bytes m').2.contents q := by
  rcases files_of_contents hcontent with ⟨hs, ht⟩ | ⟨entry, entry', hs, ht, hbytes⟩
  · simp only [host, hcursor, hcursor', hs, ht]
    exact ⟨trivial, hm, hcontent⟩
  · simp only [host, hcursor, hcursor', hs, ht, State.writing, hbytes]
    have hset := hm.setting hp hq
      (some { entry with
        bytes := entry'.bytes.take k ++ bytes ++ entry'.bytes.drop (k + bytes.length) })
      (some { entry' with
        bytes := entry'.bytes.take k ++ bytes ++ entry'.bytes.drop (k + bytes.length) })
    refine ⟨trivial, ⟨hset.files, hset.report, hset.output, hset.code⟩, ?_⟩
    simp [State.contents, State.setting]

/-- It is not seen that a relay is removed. -/
theorem remove (oracle : Oracle) {p : Path} (hp : store.Names p) :
    m.Resembles store ((host oracle).remove p m).2 := by
  simp only [host]
  split
  · refine ⟨fun path hpath => ?_, rfl, rfl, rfl⟩
    exact (Function.update_of_ne (fun heq : path = p => hpath (heq ▸ hp)) _ _).symm
  · exact (State.Resembles.equivalence store).refl m

end State.Resembles

/-- Two states of the machine differ in relays and open files alone. -/
structure State.Alike (store : RelayStore) (m m' : State) : Prop where
  files : ∀ path, ¬store.Names path → m.files path = m'.files path
  report : m.report = m'.report
  output : m.output = m'.output
  code : m.code = m'.code
  written : m.written = m'.written

theorem State.Alike.resembles (hm : m.Alike store m') : m.Resembles store m' :=
  ⟨hm.files, hm.report, hm.output, hm.code⟩

theorem State.Resembles.alike (hm : m.Resembles store m') (hwritten : m.written = m'.written) :
    m.Alike store m' :=
  ⟨hm.files, hm.report, hm.output, hm.code, hwritten⟩

theorem discreet (ho : Oracle.Ignores oracle store) :
    files.Discreet (host oracle) store (State.Alike store) where
  equivalence :=
    have heqv := State.Resembles.equivalence store
    { refl m := (heqv.refl m).alike rfl
      symm h := (heqv.symm h.resembles).alike h.written.symm
      trans h h' := (heqv.trans h.resembles h'.resembles).alike (h.written.trans h'.written) }
  entry_inj _ _ heq := heq
  patience _ := rfl
  readReport _ count m m' hm :=
    ⟨by simp only [host, hm.report], hm.files, by simp only [host, hm.report], hm.output,
      hm.code, hm.written⟩
  readOutput _ count m m' hm :=
    ⟨by simp only [host, hm.output], hm.files, hm.report, by simp only [host, hm.output],
      hm.code, hm.written⟩
  pollOutput _ _ _ _ hm := ⟨rfl, hm⟩
  wait _ _ m m' hm := ⟨by simp only [host, hm.code], hm⟩
  kill _ _ _ _ hm := ⟨rfl, hm⟩
  hangUp _ _ _ hm := hm
  sleep _ _ _ hm := hm
  spawn argv m m' hm := ⟨rfl, (hm.resembles.start ho argv rfl).alike hm.written⟩
  spawn_relay argv _ _ _ _ _ _ hm hcursor hcursor' hcontent :=
    ⟨rfl, (hm.resembles.start_relay ho argv hcursor hcursor' hcontent).alike hm.written⟩
  createNew {path m m'} hpath hm hcontent := by
    change m.contents path = m'.contents path at hcontent
    rcases files_of_contents hcontent with ⟨hs, ht⟩ | ⟨entry, entry', hs, ht, -⟩
    · simp only [host, hs, ht]
      have hset := hm.resembles.setting hpath hpath (some ⟨[], true⟩) (some ⟨[], true⟩)
      exact ⟨.ok _ _, hset.files, hset.report, hset.output, hset.code, hm.written⟩
    · simp only [host, hs, ht]
      exact ⟨.error _, hm⟩
  openRead {path m m'} _ hm hcontent := by
    obtain ⟨hanswer, hafter⟩ := hm.resembles.openRead oracle hcontent
    refine ⟨hanswer, hafter.alike ?_⟩
    rw [written_openRead, written_openRead, hm.written]
  append {path handle handle' k} bytes {m m'} hpath hm hcursor hcursor' hcontent := by
    obtain ⟨hanswer, hafter, hsame⟩ :=
      hm.resembles.append oracle bytes hpath hpath hcursor hcursor' hcontent
    refine ⟨hanswer, hafter.alike ?_, hsame⟩
    rw [written_append, written_append, hm.written]
  close _ m := ⟨fun _ _ => rfl, rfl, rfl, rfl, rfl⟩
  remove m hpath := by
    refine (State.Resembles.remove oracle hpath).alike ?_
    simp only [host]
    split <;> rfl
  tell _ m := ⟨fun _ _ => rfl, rfl, rfl, rfl, rfl⟩

/-- Such programs do nothing to relays. -/
theorem orderly_outside (ho : Oracle.Ignores oracle store) :
    files.Orderly (host oracle) store (files.outside store) :=
  orderly (fun _ _ _ => rfl) (fun hab hbc hpath => (hab hpath).trans (hbc hpath))
    (fun argv input contents _ hpath => (ho.keeps argv input contents hpath).symm) store

end Discreet

/-! ## A sample

A few programs and a composition of them, at which statements on evaluations
are tried out. -/

namespace Sample

/-- `say` writes its argument, `cat` what it is given, and `fail` a word before
it fails; there are no other programs. -/
def oracle : Oracle := fun argv input files =>
  match argv with
  | [name, word] =>
    if name = Bytes.ofString "say" then { output := word, files }
    else { failure := some .notFound, code := 127, files }
  | [name] =>
    if name = Bytes.ofString "cat" then { output := input.getD [], files }
    else if name = Bytes.ofString "fail" then
      { output := Bytes.ofString "no", code := 3, files }
    else { failure := some .notFound, code := 127, files }
  | _ => { failure := some .notFound, code := 127, files }

/-- The command that says a word. -/
def say (word : String) : Expression := .simple ⟨"say", [.typed (.str word)]⟩

/-- The command of a program without arguments. -/
def call (name : String) : Expression := .simple (.bare name)

/-- Two words go through a pipe, on whose right side another pipe begins with a
program that is not there; all of it is dropped for what a failing program and
a third word give. -/
def composition : Expression :=
  .binary .sequence
    (.binary .pipe (.binary .concat (say "ab") (say "cd"))
      (.binary .concat (call "cat") (.binary .pipe (call "gone") (call "cat"))))
    (.binary .concat (call "fail") (say "x"))

/-- The directory of the relays. -/
def store : RelayStore := ⟨Path.ofString "/tmp"⟩

/-- At most three bytes are kept of an output. -/
def runner : Runner := ⟨3, none⟩

/-- The name of the first relay is taken. -/
def start : Session State :=
  ⟨0, initial fun path => if path = store.pathOf 0 then some [] else none⟩

/-- The session after the composition. -/
def finish : Session State :=
  ((Evaluator.dispatch (host oracle) store runner composition .inherited).on start).2

/-- What the composition comes to. -/
def output : Capture where
  bytes := Bytes.ofString "nox"
  cap := 3
  isTruncated := false
  status := some (.exited 0)
  faults := [.notSpawned "gone" .notFound, .unsuccessful "fail" (.exited 3)]

/-- The same with an evaluator that echoes. -/
def evaluator : Evaluator :=
  .ofConfiguration { captureCap := 3, relayDir := Path.ofString "/tmp" }

theorem dispatch_eq :
    (Evaluator.dispatch (host oracle) store runner composition .inherited).on start
      = (.ok output, finish) :=
  Prod.ext (by decide +kernel) rfl

theorem evaluate_eq :
    ((evaluator.evaluate (host oracle) composition).on start).1 = .ok output := by
  decide +kernel

/-- The programs of the sample leave the files as they are, … -/
theorem files_oracle (argv : List Bytes) (input : Option Bytes) (contents : Path → Option Bytes) :
    (oracle argv input contents).files = contents := by
  unfold oracle
  rcases argv with _ | ⟨name, _ | ⟨word, _ | _⟩⟩
  · rfl
  · simp only
    split
    · rfl
    · split <;> rfl
  · simp only
    split <;> rfl
  · rfl

/-- … and do not look at them. -/
theorem oracle_eq (argv : List Bytes) (input : Option Bytes)
    (contents other : Path → Option Bytes) :
    oracle argv input other = { oracle argv input contents with files := other } := by
  unfold oracle
  rcases argv with _ | ⟨name, _ | ⟨word, _ | _⟩⟩
  · rfl
  · simp only
    split
    · rfl
    · split <;> rfl
  · simp only
    split <;> rfl
  · rfl

theorem orderly_eq : files.Orderly (host oracle) store fun _ a b => a = b :=
  orderly (fun _ _ => rfl) (fun hab hbc => hab.trans hbc)
    (fun argv input contents path => (congrFun (files_oracle argv input contents) path).symm)
    store

/-- None of its programs knows of relays, wherever these are. -/
theorem ignores {store : RelayStore} : Oracle.Ignores oracle store where
  blind argv input f g hfg := by
    rw [oracle_eq argv input f g]
    refine ⟨rfl, rfl, rfl, fun path hpath => ?_⟩
    rw [files_oracle]
    exact hfg path hpath
  keeps argv input f path _ := congrFun (files_oracle argv input f) path

end Sample

end Sandbox

end CommandExpr
