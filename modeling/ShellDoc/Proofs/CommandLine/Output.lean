import ShellDoc.CommandLine.Run
import ShellDoc.Proofs.FileTree.Listing
import ShellDoc.Proofs.Source.Output
import ShellDoc.Proofs.Source.Spelling

/-!
# Where outputs go

The output for a source goes directly into the output directory, under a visible name which is none
of a source (`outputPath_contained`). Dots are what could break this: leading ones, which hide a
file, lead up, or are taken for that of an extension, and those in the path of the source, which
leave its name unmentioned. Source and output read them by different rules, but a source has a name
with more than dots in it.
-/

namespace ShellDoc.CommandLine

open Source FileTree

variable {directory p : Path} {format : Format}

/-- The path of an output has one component more than that of its directory. -/
theorem components_outputPath (directory : Path) (format : Format) (p : Path) :
    (outputPath directory format p).components =
      directory.components ++ [.name (outputFile format p)] :=
  Path.components_join_name (isEntryName_outputFile format p) directory

/-- Where the path of an output leads is directly below where that of its directory leads. -/
theorem eq_of_locate_outputPath {tree : FileTree} {root location : Location}
    (hdirectory : tree.locate directory = .ok root)
    (hlocate : tree.locate (outputPath directory format p) = .ok location) :
    location = root ++ [outputFile format p] := by
  rw [locate_eq_foldl hlocate, components_outputPath, List.foldl_append,
    ← locate_eq_foldl hdirectory]
  rfl

theorem isShellSource_outputPath (directory : Path) (format : Format) (p : Path) :
    isShellSource (outputPath directory format p) = false := by
  rw [isShellSource_eq, outputPath, ← outputFile,
    Path.fileName?_join (isEntryName_outputFile format p)]
  exact isSourceName_outputFile format p

/-- **Outputs stay in their directory and are no sources.** The output for a source has a name that is
visible and has no slash. So has its file, of whatever format, which is an entry of the output
directory, by its path as by where it leads, and is never a source. -/
theorem outputPath_contained (h : isShellSource p = true) (directory : Path) (format : Format) :
    (IsVisible (outputName p) ∧ '/' ∉ outputName p) ∧
      (IsVisible (outputFile format p) ∧ '/' ∉ outputFile format p) ∧
      (outputPath directory format p).components =
        directory.components ++ [.name (outputFile format p)] ∧
      (∀ tree : FileTree, ∀ root location, tree.locate directory = .ok root →
        tree.locate (outputPath directory format p) = .ok location →
        location = root ++ [outputFile format p]) ∧
      isShellSource (outputPath directory format p) = false := by
  have hvisible := isVisible_outputName h
  refine ⟨⟨hvisible, fun hslash => (mem_outputName hslash).2 rfl⟩,
    ⟨hvisible.append _, (isEntryName_outputFile format p).noSlash⟩,
    components_outputPath directory format p, fun tree root location hdirectory hlocate => ?_,
    isShellSource_outputPath directory format p⟩
  exact eq_of_locate_outputPath hdirectory hlocate

/-- A source whose name starts with two dots, at the end of a path that leads up and ends in a dot. -/
theorem outputPath_contained_twoDots :
    isShellSource ⟨"lib/../..sh/.".toList⟩ = true ∧
      IsVisible (outputName ⟨"lib/../..sh/.".toList⟩) ∧
      (outputPath ⟨"docs/..".toList⟩ .markdown ⟨"lib/../..sh/.".toList⟩).components =
        [.name "docs".toList, .parent, .name "sh.md".toList] ∧
      isShellSource (outputPath ⟨"docs/..".toList⟩ .markdown ⟨"lib/../..sh/.".toList⟩) = false := by
  have hsource : isShellSource ⟨"lib/../..sh/.".toList⟩ = true := by decide
  obtain ⟨⟨hvisible, _⟩, _, hcomponents, _, hforeign⟩ :=
    outputPath_contained hsource ⟨"docs/..".toList⟩ .markdown
  exact ⟨hsource, hvisible, hcomponents.trans (by decide), hforeign⟩

/-- Names in which sources and outputs read dots differently. -/
example :
    [".a.sh", "a..zsh", ".zshrc", "x.sh.bash", "...bash"].map (fun name =>
      (isShellSource ⟨name.toList⟩, outputName ⟨name.toList⟩)) =
        [(true, ['a']), (true, ['a', '.']), (true, "zshrc".toList), (true, "x.sh".toList),
          (true, "bash".toList)] := by
  decide

end ShellDoc.CommandLine
