import HackAssembler.Proofs.FileSystem
import HackAssembler.Proofs.Grid

/-!
# All words or none

A build of one file either writes all words of its source or leaves the file system as it was. The
source is read and assembled before anything is written, and the words are written by one request.
So an error names the first thing that went wrong: the input could not be read, or it was no text,
or it was rejected, or the output was refused (`FileBuilt`). A build of a directory may write some
outputs and fail for others, but then it says so; with any other error it has not written anything.

All this holds in every file system, with links or without.
-/

set_option autoImplicit false

namespace HackAssembler.Build

variable {σ : Type} [FileStore (StateM σ)]

/-- Once a build goes through the sources of a directory, it can only fail for some of them. -/
theorem incomplete_of_assembleAll {mode : Mode} {inputs : List String} {before : σ}
    {failure : Failure}
    (failed : ((assembleAll mode inputs : StateM σ (Run (List Product))).run before).1.outcome =
      .error failure) :
    ∃ count total, failure = .incomplete count total := by
  obtain ⟨attempts, after, ran⟩ : ∃ attempts after,
      (inputs.mapM (attempt mode) : StateM σ (List (List Event × Option Product))).run before =
        (attempts, after) := ⟨_, _, rfl⟩
  rw [assembleAll, run_bind _ ran] at failed
  by_cases all : inputs.length - (attempts.filterMap (·.2)).length = 0
  · exact absurd ((if_pos all).symm.trans failed) (by simp)
  · exact ⟨_, _, (Except.error.inj ((if_neg all).symm.trans failed)).symm⟩

variable [FileSystem σ]

/-! ## Reading -/

/-- What a file system reads under a path. -/
def fileRead (state : σ) (path : String) : Except AccessError ByteArray :=
  ((FileStore.read path : StateM σ (Except AccessError ByteArray)).run state).1

theorem run_read (state : σ) (path : String) :
    (FileStore.read path : StateM σ (Except AccessError ByteArray)).run state =
      (fileRead state path, state) := (FileSystem.read path).run_eq state

theorem observes_discover (directory : String) :
    Observes (discover directory : StateM σ (Except Failure (List String))) := by
  apply (FileSystem.names directory).bind
  intro answer
  cases answer with
  | error cause => exact observes_pure _
  | ok names =>
    exact (observes_filterM (fun path => FileSystem.isFile path) _).bind fun sources =>
      observes_pure _

/-! ## One file -/

/-- Under the output there are the words of the listing and nothing else: each word with a line feed
behind it. What is not the output is as it was. -/
structure Delivered (before : σ) (output : String) (listing : Listing) (after : σ) : Prop where
  replaced : Replaced before output listing.wordLines.toUTF8 after
  content : listing.wordLines.toList =
    (listing.words.map String.toList).flatMap (· ++ ['\n'])
  lines : Text.lines listing.wordLines.toList = listing.words.map String.toList

/-- What the build of one file can come to: its outcome and the state that it leaves. -/
inductive FileBuilt (mode : Mode) (before : σ) (input output : String) :
    Except Failure Listing → σ → Prop
  | unread {cause : AccessError} : fileRead before input = .error cause →
      FileBuilt mode before input output (.error (.access input cause)) before
  | noText {bytes : ByteArray} : fileRead before input = .ok bytes →
      String.fromUTF8? bytes = none →
      FileBuilt mode before input output (.error (.access input .invalidText)) before
  | rejected {bytes : ByteArray} {source : String} {fault : Fault} :
      fileRead before input = .ok bytes → String.fromUTF8? bytes = some source →
      (assemble mode source).outcome = .error fault →
      FileBuilt mode before input output (.error (.assembly input fault)) before
  | refused {bytes : ByteArray} {source : String} {listing : Listing} {cause : AccessError} :
      fileRead before input = .ok bytes → String.fromUTF8? bytes = some source →
      (assemble mode source).outcome = .ok listing →
      (FileStore.write output listing.wordLines.toUTF8 :
        StateM σ (Except AccessError Unit)).run before = (.error cause, before) →
      FileBuilt mode before input output (.error (.access output cause)) before
  | written {bytes : ByteArray} {source : String} {listing : Listing} {after : σ} :
      fileRead before input = .ok bytes → String.fromUTF8? bytes = some source →
      (assemble mode source).outcome = .ok listing →
      Delivered before output listing after →
      FileBuilt mode before input output (.ok listing) after

theorem FileBuilt.unchanged {mode : Mode} {before after : σ} {input output : String}
    {failure : Failure} (built : FileBuilt mode before input output (.error failure) after) :
    after = before := by
  cases built <;> rfl

/-- Either all words are written, or nothing is. -/
theorem fileBuilt_assembleFile (mode : Mode) (before : σ) (input output : String) :
    FileBuilt mode before input output
      ((assembleFile mode input output : StateM σ (Run Listing)).run before).1.outcome
      ((assembleFile mode input output : StateM σ (Run Listing)).run before).2 := by
  rw [assembleFile, run_bind _ (run_readSource (run_read before input))]
  cases read : fileRead before input with
  | error cause => exact .unread read
  | ok bytes =>
    cases text : String.fromUTF8? bytes with
    | none =>
      simp only [sourceText, text]
      exact .noText read text
    | some source =>
      simp only [sourceText, text]
      rw [Traced.relabel]
      cases assembled : (assemble mode source).outcome with
      | error fault => exact .rejected read text assembled
      | ok listing =>
        dsimp only [Except.mapError]
        obtain ⟨answer, after, answered⟩ : ∃ answer after,
            (FileStore.write output listing.wordLines.toUTF8 :
              StateM σ (Except AccessError Unit)).run before = (answer, after) := ⟨_, _, rfl⟩
        cases answer with
        | error cause =>
          obtain rfl := FileSystem.refused answered
          rw [run_bind _ (run_writeListing answered)]
          exact .refused read text assembled answered
        | ok _ =>
          rw [run_bind _ (run_writeListing answered)]
          exact .written read text assembled
            ⟨FileSystem.granted answered, listing.toList_wordLines, listing.lines_wordLines⟩

/-! ## Any path -/

/-- A build that fails otherwise than for some sources of a directory has written nothing. -/
theorem unchanged_assemblePath {mode : Mode} {input : String} {output : Option String} {before : σ}
    {failure : Failure}
    (failed : ((assemblePath mode input output :
      StateM σ (Run (List Product))).run before).1.outcome = .error failure)
    (whole : ∀ count total, failure ≠ .incomplete count total) :
    ((assemblePath mode input output : StateM σ (Run (List Product))).run before).2 = before := by
  have kind := (FileSystem.isDirectory input).run_eq before
  unfold assemblePath at failed ⊢
  rw [run_bind _ kind] at failed ⊢
  by_cases isDirectory : ((FileStore.isDirectory input : StateM σ Bool).run before).1 = true
  · rw [if_pos isDirectory] at failed ⊢
    cases output with
    | some output => rfl
    | none =>
      obtain ⟨found, lists⟩ : ∃ found,
          (discover input : StateM σ (Except Failure (List String))).run before = (found, before) :=
        ⟨_, (observes_discover input).run_eq before⟩
      dsimp only at failed ⊢
      rw [run_bind _ lists] at failed ⊢
      cases found with
      | error failure => rfl
      | ok inputs =>
        obtain ⟨count, total, rfl⟩ := incomplete_of_assembleAll failed
        exact absurd rfl (whole count total)
  · rw [if_neg isDirectory] at failed ⊢
    dsimp only at failed ⊢
    have built := fileBuilt_assembleFile mode before input (output.getD (outputPath input))
    obtain ⟨run, after, ran⟩ : ∃ run after, (assembleFile mode input
        (output.getD (outputPath input)) : StateM σ (Run Listing)).run before = (run, after) :=
      ⟨_, _, rfl⟩
    rw [ran] at built
    rw [run_bind _ ran] at failed ⊢
    cases outcome : run.outcome with
    | error reason =>
      rw [outcome] at built
      exact built.unchanged
    | ok listing =>
      rw [map_eq_pure_bind, Traced.bind_of_ok _ outcome] at failed
      contradiction

/-- A build of one file writes all words of its listing or nothing, and a failing build of any path
has written nothing, unless it says that only some sources of a directory failed. -/
theorem all_words_or_none (mode : Mode) (before : σ) (input : String) :
    (∀ output, FileBuilt mode before input output
      ((assembleFile mode input output : StateM σ (Run Listing)).run before).1.outcome
      ((assembleFile mode input output : StateM σ (Run Listing)).run before).2) ∧
    ∀ output? failure,
      ((assemblePath mode input output? :
        StateM σ (Run (List Product))).run before).1.outcome = .error failure →
      (∀ count total, failure ≠ .incomplete count total) →
      ((assemblePath mode input output? : StateM σ (Run (List Product))).run before).2 = before :=
  ⟨fileBuilt_assembleFile mode before input, fun _ _ failed whole =>
    unchanged_assemblePath failed whole⟩

/-- A rejected source leaves the words of its last build in place. -/
theorem all_words_or_none_rejected :
    ∃ disk : Disk,
      disk.read "a.hack" = .ok "0000000000000001\n".toUTF8 ∧
      ((assemblePath .strict "a.asm" none : StateM Disk (Run (List Product))).run disk).1.outcome =
        .error (.assembly "a.asm" ⟨2, .unknownMnemonic .comp "X"⟩) ∧
      ((assemblePath .strict "a.asm" none : StateM Disk (Run (List Product))).run disk).2 = disk ∧
      FileBuilt .lenient disk "a.asm" "a.hack"
        ((assembleFile .lenient "a.asm" "a.hack" : StateM Disk (Run Listing)).run disk).1.outcome
        ((assembleFile .lenient "a.asm" "a.hack" : StateM Disk (Run Listing)).run disk).2 := by
  have failed : ((assemblePath .strict "a.asm" none : StateM Disk (Run (List Product))).run
      ((Disk.blank.store "a.asm" "@1\nD=X".toUTF8).store "a.hack"
        "0000000000000001\n".toUTF8)).1.outcome =
      .error (.assembly "a.asm" ⟨2, .unknownMnemonic .comp "X"⟩) := by
    decide +kernel
  exact ⟨_, by decide +kernel, failed, (all_words_or_none .strict _ _).2 none _ failed (by simp),
    (all_words_or_none .lenient _ _).1 _⟩

end HackAssembler.Build
