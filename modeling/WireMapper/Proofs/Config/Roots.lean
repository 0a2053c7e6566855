import Mathlib.Data.List.Nodup
import WireMapper.CommandLine.Settings
import WireMapper.Proofs.Config.Validation
import WireMapper.Proofs.Except
import WireMapper.Proofs.Path.Directory

/-!
The source roots that a command works with. They are those of the options, or else those of a file,
seen from the directory of that file. The checks come after that: two accepted roots can still name
one directory, if one of them is the other with a dot in front, and an empty root of a file in
another directory is not empty any more by then. Such a root stands for the directory of the file.
-/

namespace WireMapper

open CommandLine (Settings)

variable {s : Settings} {tree : FileTree} {config written : Config} {base file root p q : Path}
  {text : String}

/-- The configuration of a file, with its paths seen from the directory of the file. -/
def Config.seenFrom (written : Config) (file : Path) : Config :=
  file.parent?.elim written written.rebase

/-- A file gives a configuration if its text does; the paths in it are rebased after that. -/
theorem Config.ofFile_eq_ok_iff : Config.ofFile tree file = .ok config ↔
    ∃ text written, tree.readText file = .ok text ∧ Config.ofText text = .ok written ∧
      written.seenFrom file = config := by
  rw [Config.ofFile]
  cases tree.readText file with
  | error cause => simp
  | ok text =>
      cases hwritten : Config.ofText text with
      | error fault => simp [hwritten]
      | ok written => cases hparent : file.parent? <;> simp [hwritten, Config.seenFrom, hparent]

/-- The options lead to a configuration file: the one that they name, or the default one if it is
there. -/
def CommandLine.Settings.ReadsFrom (s : Settings) (tree : FileTree) (file : Path) : Prop :=
  s.config? = some file ∨
    s.config? = none ∧ file = CommandLine.defaultConfig ∧
      tree.isFile CommandLine.defaultConfig = true

/-- Where the options lead to a file, the configuration is what they make of that file. -/
theorem CommandLine.Settings.load_eq_ok_iff (h : s.ReadsFrom tree file) : s.load tree = .ok config ↔
    ∃ text written, tree.readText file = .ok text ∧ Config.ofText text = .ok written ∧
      s.apply (written.seenFrom file) = config := by
  have hload : s.load tree = (Settings.read tree file).map s.apply := by
    rcases h with hnamed | ⟨hunnamed, rfl, hfile⟩
    · rw [Settings.load, hnamed]
    · rw [Settings.load, hunnamed]
      exact if_pos hfile
  have hread : ∀ read, Settings.read tree file = .ok read ↔ Config.ofFile tree file = .ok read := by
    intro read
    rw [Settings.read]
    cases Config.ofFile tree file <;> simp
  simp only [hload, map_eq_ok, hread, Config.ofFile_eq_ok_iff]
  constructor
  · rintro ⟨_, ⟨text, written, htext, hwritten, rfl⟩, hconfig⟩
    exact ⟨text, written, htext, hwritten, hconfig⟩
  · rintro ⟨text, written, htext, hwritten, hconfig⟩
    exact ⟨_, ⟨text, written, htext, hwritten, rfl⟩, hconfig⟩

theorem CommandLine.Settings.sourceRoots_apply (h : s.roots = []) :
    (s.apply config).sourceRoots = config.sourceRoots := by
  simp [Settings.apply, h]

theorem Config.sourceRoots_seenFrom (h : file.parent? = some base) :
    (written.seenFrom file).sourceRoots = written.sourceRoots.map (Config.rebasePath base) := by
  rw [Config.seenFrom, h, Option.elim_some, Config.rebase]

/-- Either the path is absolute, or it takes the lead of the directory. -/
theorem lead_rebasePath (h : base.text ≠ "") :
    (Config.rebasePath base p).lead = "/" ∨ (Config.rebasePath base p).lead = base.lead := by
  rw [Config.rebasePath]
  cases habsolute : p.isAbsolute with
  | true => exact Or.inl (of_decide_eq_true habsolute)
  | false => exact Or.inr (Path.lead_join h habsolute)

/-- Seen from a directory that is written, no path has a dot in front that another one lacks. -/
theorem not_isDotted_rebasePath (h : base.text ≠ "") :
    ¬ (Config.rebasePath base p).IsDotted (Config.rebasePath base q) := by
  rw [Path.isDotted_iff]
  rintro ⟨hp, hq, _⟩
  rcases lead_rebasePath (p := p) h with hlead | hlead
  · simp [hp] at hlead
  · rcases lead_rebasePath (p := q) h with hother | hother
    · simp [hq] at hother
    · rw [hp] at hlead
      simp [hq, ← hlead] at hother

theorem text_rebasePath_ne_empty (h : base.text ≠ "") : (Config.rebasePath base p).text ≠ "" := by
  rw [Config.rebasePath]
  cases habsolute : p.isAbsolute with
  | true =>
      intro hempty
      simp [Path.isAbsolute, Path.lead, show p.text = "" from hempty] at habsolute
  | false =>
      rw [if_neg Bool.false_ne_true, Path.join, habsolute, if_neg Bool.false_ne_true]
      split <;> simp [h]

/-- The empty path, seen from a directory, is that directory. -/
theorem directory_rebasePath_empty : (Config.rebasePath base ⟨""⟩).directory = base.directory := by
  have hrelative : Path.isAbsolute ⟨""⟩ = false := by decide
  have hnames : Path.names ⟨""⟩ = [] := by decide
  rw [Config.rebasePath, hrelative, if_neg Bool.false_ne_true]
  by_cases hbase : base.text = ""
  · simp [Path.join, hbase, hrelative, Path.directory]
  · rw [Path.directory_eq, Path.directory_eq, Path.names_join hrelative, hnames, List.append_nil,
      Path.isAbsolute, Path.lead_join hbase hrelative, Path.isAbsolute]

/-- Accepted roots lead to different directories, unless one of them is another with a dot in front.
Those of a file that is not in the working directory always do. -/
theorem accepted_roots_apart (h : config.validate = .ok ()) :
    ((config.sourceRoots.map Path.directory).Nodup ↔
      ∀ p ∈ config.sourceRoots, ∀ q ∈ config.sourceRoots, ¬ p.IsDotted q) ∧
    ∀ (s : Settings) (tree : FileTree) (file base : Path), s.roots = [] → s.ReadsFrom tree file →
      s.load tree = .ok config → file.parent? = some base → base.text ≠ "" →
      (config.sourceRoots.map Path.directory).Nodup := by
  obtain ⟨_, _, hsound⟩ := Config.validate_eq_ok_iff.mp h
  have happart : (config.sourceRoots.map Path.directory).Nodup ↔
      ∀ p ∈ config.sourceRoots, ∀ q ∈ config.sourceRoots, ¬ p.IsDotted q := by
    constructor
    · intro hnodup p hp q hq hdotted
      have hsame : p.directory = q.directory := Path.directory_eq_iff.mpr (Or.inr (Or.inl hdotted))
      obtain rfl : p = q := List.inj_on_of_nodup_map hnodup hp hq hsame
      exact List.cons_ne_self _ _ hdotted.symm
    · intro hdots
      rw [List.Nodup, List.pairwise_map]
      refine hsound.distinct.imp_of_mem ?_
      intro p q hp hq hother hsame
      rcases Path.directory_eq_iff.mp hsame with hcomponents | hdotted | hdotted
      · exact hother hcomponents
      · exact hdots p hp q hq hdotted
      · exact hdots q hq p hp hdotted
  refine ⟨happart, ?_⟩
  intro s tree file base hroots hreads hload hparent hbase
  obtain ⟨_, written, _, _, rfl⟩ := (Settings.load_eq_ok_iff hreads).mp hload
  rw [happart, Settings.sourceRoots_apply hroots, Config.sourceRoots_seenFrom hparent]
  simp only [List.forall_mem_map]
  exact fun p _ q _ => not_isDotted_rebasePath hbase

def twoCopies (text : String) : FileTree where
  nodes := [(["conf"], .directory), (["conf", "protomap.toml"], .file text.toUTF8),
    (["protomap.toml"], .file text.toUTF8)]

def readingCopy : Settings :=
  { config? := some ⟨"conf/protomap.toml"⟩ }

def separateText : String :=
  "source_roots = [\"./src\", \"gen\"]\n"

/-- Two roots that lead apart, one of them with a dot in front. -/
theorem accepted_roots_apart_separateText :
    ∃ config, readingCopy.load (twoCopies separateText) = .ok config ∧ config.validate = .ok () ∧
      (config.sourceRoots.map Path.directory).Nodup := by
  have hload : readingCopy.load (twoCopies separateText) =
      .ok { sourceRoots := [⟨"conf/./src"⟩, ⟨"conf/gen"⟩] } := ok_of_toOption (by decide +kernel)
  have hvalid : Config.validate { sourceRoots := [⟨"conf/./src"⟩, ⟨"conf/gen"⟩] } = .ok () :=
    ok_of_toOption (by decide +kernel)
  obtain ⟨_, hfile⟩ := accepted_roots_apart hvalid
  have hparent : Path.parent? ⟨"conf/protomap.toml"⟩ = some ⟨"conf"⟩ := by decide +kernel
  exact ⟨_, hload, hvalid, hfile readingCopy _ _ _ rfl (Or.inl rfl) hload hparent (by decide)⟩

def dottedText : String :=
  "source_roots = [\"./src\", \"src\"]\n"

/-- The working directory's file is accepted, although both of its roots lead to one directory. The
copy of it in another directory is not. -/
theorem dotted_root_accepted :
    ∃ config, Settings.load {} (twoCopies dottedText) = .ok config ∧ config.validate = .ok () ∧
      ¬ (config.sourceRoots.map Path.directory).Nodup ∧
      ∃ other, readingCopy.load (twoCopies dottedText) = .ok other ∧
        other.validate = .error (ConfigFault.repeatedRoot ⟨"conf/src"⟩).toError := by
  refine ⟨{ sourceRoots := [⟨"./src"⟩, ⟨"src"⟩] }, ok_of_toOption (by decide +kernel),
    ok_of_toOption (by decide +kernel), by decide +kernel,
    { sourceRoots := [⟨"conf/./src"⟩, ⟨"conf/src"⟩] }, ok_of_toOption (by decide +kernel), ?_⟩
  rfl

/-- An empty root stays empty unless the file is in a directory that is written. -/
theorem roots_written_iff (hempty : ⟨""⟩ ∈ written.sourceRoots) :
    (∀ root ∈ (written.seenFrom file).sourceRoots, root.text ≠ "") ↔
      ∃ base, file.parent? = some base ∧ base.text ≠ "" := by
  cases hparent : file.parent? with
  | none =>
      have hsame : written.seenFrom file = written := by
        rw [Config.seenFrom, hparent, Option.elim_none]
      refine iff_of_false ?_ (by simp)
      rw [hsame]
      exact fun hwritten => hwritten _ hempty rfl
  | some base =>
      simp only [Config.sourceRoots_seenFrom hparent, List.forall_mem_map, Option.some.injEq,
        exists_eq_left']
      constructor
      · intro hwritten hbase
        have hjoined : Config.rebasePath base ⟨""⟩ = ⟨""⟩ := by
          have hnowhere : base = ⟨""⟩ := congrArg Path.mk hbase
          rw [hnowhere]
          decide
        exact hwritten _ hempty (congrArg Path.text hjoined)
      · exact fun hbase root _ => text_rebasePath_ne_empty hbase

theorem exists_validate_eq_error_iff :
    (∃ e, config.validate = .error e) ↔ config.validate ≠ .ok () := by
  cases config.validate <;> simp

/-- An empty root is refused if the file is in the working directory. In a file that is in another
directory it leads to the directory of the file, and nothing is wrong with it. -/
theorem empty_root_rejected_iff (hroots : s.roots = []) (hreads : s.ReadsFrom tree file)
    (htext : tree.readText file = .ok text) (hwritten : Config.ofText text = .ok written)
    (hempty : ⟨""⟩ ∈ written.sourceRoots) :
    ∃ config, s.load tree = .ok config ∧
      ((∃ e, config.validate = .error e) ↔
        (∀ base, file.parent? = some base → base.text = "") ∨ ¬ config.IsSound) ∧
      ∀ base, file.parent? = some base →
        ∃ root ∈ config.sourceRoots, root.directory = base.directory := by
  refine ⟨s.apply (written.seenFrom file),
    (Settings.load_eq_ok_iff hreads).mpr ⟨text, written, htext, hwritten, rfl⟩, ?_, ?_⟩
  · have hsome : (written.seenFrom file).sourceRoots ≠ [] := by
      rw [Config.seenFrom]
      cases file.parent? <;> simp [Config.rebase, List.ne_nil_of_mem hempty]
    rw [exists_validate_eq_error_iff, Ne, Config.validate_eq_ok_iff,
      Settings.sourceRoots_apply hroots, roots_written_iff hempty]
    constructor
    · intro hrefused
      by_cases hsound : (s.apply (written.seenFrom file)).IsSound
      · refine Or.inl fun base hparent => Decidable.byContradiction fun hbase => ?_
        exact hrefused ⟨hsome, ⟨base, hparent, hbase⟩, hsound⟩
      · exact Or.inr hsound
    · rintro (hnowhere | hunsound) ⟨_, ⟨base, hparent, hbase⟩, hsound⟩
      · exact hbase (hnowhere base hparent)
      · exact hunsound hsound
  · intro base hparent
    rw [Settings.sourceRoots_apply hroots, Config.sourceRoots_seenFrom hparent]
    exact ⟨_, List.mem_map_of_mem hempty, directory_rebasePath_empty⟩

def emptyText : String :=
  "source_roots = [\"\"]\n"

/-- The working directory's file is refused. -/
theorem empty_root_rejected_iff_emptyText :
    ∃ config, Settings.load {} (twoCopies emptyText) = .ok config ∧
      ∃ e, config.validate = .error e := by
  have hreads : Settings.ReadsFrom {} (twoCopies emptyText) CommandLine.defaultConfig :=
    Or.inr ⟨rfl, rfl, by decide +kernel⟩
  have htext : (twoCopies emptyText).readText CommandLine.defaultConfig = .ok emptyText :=
    ok_of_toOption (by decide +kernel)
  have hwritten : Config.ofText emptyText = .ok { sourceRoots := [⟨""⟩] } :=
    ok_of_toOption (by decide +kernel)
  obtain ⟨config, hload, hrefused, _⟩ :=
    empty_root_rejected_iff rfl hreads htext hwritten (List.mem_singleton_self _)
  have hparent : CommandLine.defaultConfig.parent? = some ⟨""⟩ := by decide +kernel
  refine ⟨config, hload, hrefused.mpr (Or.inl ?_)⟩
  intro base hbase
  obtain rfl : ⟨""⟩ = base := Option.some.inj (hparent.symm.trans hbase)
  rfl

/-- The copy of the same file in another directory is accepted, with that directory for a root. -/
theorem empty_root_accepted :
    Config.ofText emptyText = .ok { sourceRoots := [⟨""⟩] } ∧
      ∃ config, readingCopy.load (twoCopies emptyText) = .ok config ∧ config.validate = .ok () ∧
        config.sourceRoots = [⟨"conf/"⟩] :=
  ⟨ok_of_toOption (by decide +kernel), { sourceRoots := [⟨"conf/"⟩] },
    ok_of_toOption (by decide +kernel), ok_of_toOption (by decide +kernel), rfl⟩

end WireMapper
