import Mathlib.Data.List.DropRight
import Mathlib.Data.List.SplitBy
import SlotLang.Command.Basic
import SlotLang.Machine.Script

/-!
# Runs on the console

A console reads bytes and a script reads lines.  They answer alike as long as the bytes
left on the console are those of a text whose lines are left in the script, so a module
runs on the console as it runs on the lines of its input.  The lines of a text are found
without looking at its bytes: the text is cut after every newline, and the newlines and
carriage returns at the end of each piece are dropped.

* `Host.Agrees` — two hosts answer alike in related states.
* `CodeModule.matches_runFrom` — runs on hosts that agree go the same way.
* `Console.lines` — the lines of a text.
* `Console.exists_cutLine` — the first line of the bytes of a text is that of the text.
* `CodeModule.runResult_console` — a run on the console is one on the lines of the input.
-/

namespace SlotLang

/-! ## Hosts that agree -/

/-- The hosts give the same answers in related states, and go on to related states. -/
structure Host.Agrees {σ τ : Type} (first : Host σ) (second : Host τ) (related : σ → τ → Prop) :
    Prop where
  write : ∀ line h k, related h k → ∃ answer h' k',
    first.write line h = (answer, h') ∧ second.write line k = (answer, k') ∧ related h' k'
  read : ∀ h k, related h k → ∃ answer h' k',
    first.read h = (answer, h') ∧ second.read k = (answer, k') ∧ related h' k'

/-- The outcomes are the same up to the states of the hosts, which are related. -/
inductive Outcome.Matches {σ τ : Type} (related : σ → τ → Prop) : Outcome σ → Outcome τ → Prop
  | finished (state : MachineState) {h : σ} {k : τ} (hrelated : related h k) :
      Matches related (.finished state h) (.finished state k)
  | failed (error : RuntimeError) {h : σ} {k : τ} (hrelated : related h k) :
      Matches related (.failed error h) (.failed error k)
  | outOfFuel (state : MachineState) {h : σ} {k : τ} (hrelated : related h k) :
      Matches related (.outOfFuel state h) (.outOfFuel state k)

/-- A module runs the same way on two hosts that agree. -/
theorem CodeModule.matches_runFrom {σ τ : Type} {first : Host σ} {second : Host τ}
    {related : σ → τ → Prop} (hagrees : first.Agrees second related) (m : CodeModule) (fuel : Nat)
    (state : MachineState) {h : σ} {k : τ} (hrelated : related h k) :
    Outcome.Matches related (m.runFrom first fuel state h) (m.runFrom second fuel state k) := by
  induction fuel generalizing state h k with
  | zero => exact .outOfFuel state hrelated
  | succ fuel ih =>
      simp only [runFrom]
      cases m.step state with
      | next state' => exact ih state' hrelated
      | halt state' => exact .finished state' hrelated
      | fault error => exact .failed error hrelated
      | write line state' =>
          obtain ⟨answer, h', k', hfirst, hsecond, hnext⟩ := hagrees.write line h k hrelated
          simp only [hfirst, hsecond]
          cases answer with
          | error reason => exact .failed _ hnext
          | ok _ => exact ih state' hnext
      | read state' =>
          obtain ⟨answer, h', k', hfirst, hsecond, hnext⟩ := hagrees.read h k hrelated
          simp only [hfirst, hsecond]
          cases answer with
          | error reason => exact .failed _ hnext
          | ok line? =>
              cases line? with
              | none => exact .failed _ hnext
              | some line => exact ih _ hnext

/-! ## The lines of a text -/

namespace Text

/-- The bytes of a run of characters. -/
def bytesOf (text : List Char) : List UInt8 :=
  text.flatMap String.utf8EncodeChar

@[simp] theorem bytesOf_nil : bytesOf [] = [] := rfl

@[simp] theorem bytesOf_cons (c : Char) (rest : List Char) :
    bytesOf (c :: rest) = String.utf8EncodeChar c ++ bytesOf rest := rfl

@[simp] theorem bytesOf_append (first second : List Char) :
    bytesOf (first ++ second) = bytesOf first ++ bytesOf second :=
  List.flatMap_append

theorem bytesOf_ne_nil {text : List Char} (hne : text ≠ []) : bytesOf text ≠ [] := by
  cases text with
  | nil => exact absurd rfl hne
  | cons c rest =>
      have hlength := String.length_utf8EncodeChar c
      have hsize := c.utf8Size_pos
      intro hempty
      rw [List.append_eq_nil_iff.mp hempty |>.1] at hlength
      rw [← hlength] at hsize
      exact absurd hsize (Nat.lt_irrefl 0)

theorem utf8Bytes_ofList (text : List Char) : utf8Bytes (String.ofList text) = bytesOf text :=
  List.toList_data_toByteArray

theorem utf8Bytes_eq (text : String) : utf8Bytes text = bytesOf text.toList := by
  rw [← utf8Bytes_ofList, String.ofList_toList]

end Text

namespace Console

/-- The text cut after each newline. -/
def pieces (text : List Char) : List (List Char) :=
  text.splitBy fun c _ => c != '\n'

/-- The lines of a text: its pieces, without the newlines and carriage returns at their
ends. -/
def lines (text : List Char) : List String :=
  (pieces text).map fun piece =>
    String.ofList (piece.rdropWhile fun c => c == '\n' || c == '\r')

theorem newline_notMem_utf8EncodeChar {c : Char} (hc : c ≠ '\n') :
    newline ∉ String.utf8EncodeChar c := by
  have hne : c.val.toNat ≠ 10 := fun hval => hc (Char.ext (UInt32.toNat_inj.mp hval))
  have hbyte : ∀ n, n % 256 ≠ 10 → newline ≠ UInt8.ofNat n := by
    intro n hn heq
    exact hn (by simpa [newline] using (congrArg UInt8.toNat heq).symm)
  -- The bytes of a longer form are all above 127.
  simp only [String.utf8EncodeChar]
  split
  · simp only [List.mem_singleton]
    exact hbyte _ (by omega)
  · split
    · simp only [List.mem_cons, List.not_mem_nil, or_false, not_or]
      exact ⟨hbyte _ (by omega), hbyte _ (by omega)⟩
    · split
      · simp only [List.mem_cons, List.not_mem_nil, or_false, not_or]
        exact ⟨hbyte _ (by omega), hbyte _ (by omega), hbyte _ (by omega)⟩
      · simp only [List.mem_cons, List.not_mem_nil, or_false, not_or]
        exact ⟨hbyte _ (by omega), hbyte _ (by omega), hbyte _ (by omega), hbyte _ (by omega)⟩

theorem newline_notMem_bytesOf {text : List Char} (htext : '\n' ∉ text) :
    newline ∉ Text.bytesOf text := by
  intro hmem
  obtain ⟨c, hc, hbyte⟩ := List.mem_flatMap.mp hmem
  refine newline_notMem_utf8EncodeChar ?_ hbyte
  rintro rfl
  exact htext hc

/-- A line goes up to the first newline. -/
theorem cutLine_append {bytes : List UInt8} (hbytes : newline ∉ bytes) (rest : List UInt8) :
    cutLine (bytes ++ rest) = (bytes ++ (cutLine rest).1, (cutLine rest).2) := by
  induction bytes with
  | nil => rfl
  | cons byte others ih =>
      obtain ⟨hbyte, hothers⟩ := List.ne_and_not_mem_of_not_mem_cons hbytes
      rw [List.cons_append, cutLine, if_neg hbyte.symm, ih hothers]
      rfl

/-- Characters other than newlines stay together. -/
theorem isChain_of_notMem {text : List Char} (htext : '\n' ∉ text) :
    text.IsChain fun c _ => (c != '\n') = true := by
  refine List.Pairwise.isChain (List.pairwise_of_forall_mem_list fun c hc _ _ => ?_)
  exact bne_iff_ne.mpr fun hnewline => htext (hnewline ▸ hc)

/-- A text without newlines is one piece. -/
theorem pieces_of_notMem {text : List Char} (htext : '\n' ∉ text) (hne : text ≠ []) :
    pieces text = [text] :=
  List.splitBy_of_isChain hne (isChain_of_notMem htext)

/-- The first piece of a text goes up to the first newline. -/
theorem pieces_append_newline {front : List Char} (hfront : '\n' ∉ front) (rest : List Char) :
    pieces (front ++ '\n' :: rest) = (front ++ ['\n']) :: pieces rest := by
  have hchain : (front ++ ['\n']).IsChain fun c _ => (c != '\n') = true := by
    refine List.isChain_append.mpr ⟨isChain_of_notMem hfront, .singleton _, fun c hc _ _ => ?_⟩
    exact bne_iff_ne.mpr fun hnewline => hfront (hnewline ▸ List.mem_of_mem_getLast? hc)
  have hsplit : front ++ '\n' :: rest = (front ++ ['\n']) ++ rest := by simp
  unfold pieces
  rw [hsplit, List.splitBy_append (by simp), List.splitBy_of_isChain (by simp) hchain]
  rfl

/-- The first line of a text is cut off in its characters where it is cut off in its
bytes. -/
theorem exists_cutLine {text : List Char} (hne : text ≠ []) :
    ∃ line rest, pieces text = line :: pieces rest ∧
      cutLine (Text.bytesOf text) = (Text.bytesOf line, Text.bytesOf rest) := by
  by_cases hnewline : '\n' ∈ text
  · obtain ⟨front, rest, rfl, hfront⟩ := List.eq_append_cons_of_mem hnewline
    refine ⟨front ++ ['\n'], rest, pieces_append_newline hfront rest, ?_⟩
    have hbyte : String.utf8EncodeChar '\n' = [newline] := rfl
    rw [Text.bytesOf_append, Text.bytesOf_cons, hbyte,
      cutLine_append (newline_notMem_bytesOf hfront)]
    simp [cutLine, hbyte]
  · refine ⟨text, [], pieces_of_notMem hnewline hne, ?_⟩
    have hcut := cutLine_append (newline_notMem_bytesOf hnewline) []
    simpa [cutLine] using hcut

theorem lineOf_bytesOf (line : List Char) :
    lineOf (Text.bytesOf line) =
      .ok (String.ofList (line.rdropWhile fun c => c == '\n' || c == '\r')) := by
  rw [← Text.utf8Bytes_ofList, lineOf, Text.ofUtf8?_utf8Bytes]
  simp only [stripLineEnd, String.toList_ofList, List.rdropWhile]

/-- A read takes the first line of the text that is left, and leaves the others. -/
theorem exists_read {text : List Char} (hne : text ≠ []) (output : String) :
    ∃ line rest, lines text = line :: lines rest ∧
      read ⟨Text.bytesOf text, output⟩ = (.ok (some line), ⟨Text.bytesOf rest, output⟩) := by
  obtain ⟨line, rest, hpieces, hcut⟩ := exists_cutLine hne
  refine ⟨_, rest, by rw [lines, hpieces]; rfl, ?_⟩
  cases hbytes : Text.bytesOf text with
  | nil => exact absurd hbytes (Text.bytesOf_ne_nil hne)
  | cons byte others =>
      rw [hbytes] at hcut
      simp only [read, hcut, lineOf_bytesOf]
      rfl

end Console

/-! ## The console and a script -/

/-- The lines written, each followed by a newline. -/
def Script.printed (script : Script) : String :=
  String.join (script.output.map (· ++ "\n"))

/-- What is seen of a command without its error stream: the exit code and the output. -/
def CommandResult.shown (result : CommandResult) : UInt8 × String :=
  (result.exit, result.output)

/-- The exit code and the output that a run on a script stands for. -/
def Outcome.shown : Outcome Script → Option (UInt8 × String)
  | .finished _ script => some (0, script.printed)
  | .failed _ script => some (70, script.printed)
  | .outOfFuel _ _ => none

namespace Console

/-- The lines of the text that is left on the console are left in the script, which refuses
no call, and both have written the same lines. -/
structure Follows (console : Console) (script : Script) : Prop where
  input : ∃ text, console.input = Text.bytesOf text ∧ script.input = lines text
  output : console.output = script.printed
  failWrite : script.failWrite = none
  failRead : script.failRead = none

theorem follows_start (input : String) :
    Follows ⟨Text.utf8Bytes input, ""⟩ (Script.start (lines input.toList) none none) where
  input := ⟨input.toList, Text.utf8Bytes_eq input, rfl⟩
  output := rfl
  failWrite := rfl
  failRead := rfl

theorem Follows.write {console : Console} {script : Script} (hfollows : console.Follows script)
    (line : String) : ∃ answer console' script', host.write line console = (answer, console') ∧
      Script.host.write line script = (answer, script') ∧ console'.Follows script' := by
  have hwrite : script.failWrite ≠ some script.writes := by rw [hfollows.failWrite]; nofun
  refine ⟨.ok (), _, _, rfl, if_neg hwrite, ?_⟩
  refine ⟨hfollows.input, ?_, hfollows.failWrite, hfollows.failRead⟩
  have hlines : (script.events.push (.wrote line)).toList.filterMap Event.written? =
      script.output ++ [line] := by
    simp [Script.output, Event.written?]
  simp only [Script.printed, Script.output, hlines, List.map_append, String.join_append]
  rw [hfollows.output]
  simp [Script.printed, Script.output, String.append_assoc]

theorem Follows.read {console : Console} {script : Script} (hfollows : console.Follows script) :
    ∃ answer console' script', host.read console = (answer, console') ∧
      Script.host.read script = (answer, script') ∧ console'.Follows script' := by
  have hread : script.failRead ≠ some script.reads := by rw [hfollows.failRead]; nofun
  -- A read leaves the lines written as they are.
  have houtput : (script.events.push (.read script.input.head?)).toList.filterMap Event.written? =
      script.output := by
    simp [Script.output, Event.written?]
  obtain ⟨bytes, output⟩ := console
  obtain ⟨text, rfl, hlines⟩ := hfollows.input
  obtain ⟨rest, hanswer, hrest⟩ : ∃ rest,
      host.read ⟨Text.bytesOf text, output⟩ =
        (.ok script.input.head?, ⟨Text.bytesOf rest, output⟩) ∧
      script.input.tail = lines rest := by
    rw [hlines]
    by_cases hne : text = []
    · subst hne
      exact ⟨[], rfl, rfl⟩
    · obtain ⟨line, rest, hfirst, hnext⟩ := exists_read hne output
      rw [hfirst]
      exact ⟨rest, hnext, rfl⟩
  refine ⟨_, _, _, hanswer, if_neg hread, ⟨rest, rfl, hrest⟩, ?_, hfollows.failWrite,
    hfollows.failRead⟩
  simp only [Script.printed, Script.output, houtput]
  exact hfollows.output

/-- The console answers as the script does. -/
theorem agrees_host : host.Agrees Script.host Follows where
  write line _ _ hfollows := hfollows.write line
  read _ _ hfollows := hfollows.read

end Console

/-- A run on the console shows what a run on the lines of its input shows. -/
theorem CodeModule.runResult_console (m : CodeModule) (fuel : Nat) (input : String) :
    (runResult (m.run Console.host fuel ⟨Text.utf8Bytes input, ""⟩)).map CommandResult.shown =
      (m.run Script.host fuel (Script.start (Console.lines input.toList) none none)).shown := by
  have hmatches := m.matches_runFrom Console.agrees_host fuel (.start m)
    (Console.follows_start input)
  unfold run
  generalize m.runFrom Console.host fuel (.start m) _ = outcome at hmatches ⊢
  generalize m.runFrom Script.host fuel (.start m) _ = outcome' at hmatches ⊢
  cases hmatches with
  | finished state hfollows => exact congrArg (fun output => some (0, output)) hfollows.output
  | failed error hfollows => exact congrArg (fun output => some (70, output)) hfollows.output
  | outOfFuel state hfollows => rfl

end SlotLang
