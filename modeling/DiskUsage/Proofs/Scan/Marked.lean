import DiskUsage.Proofs.Entry.RoundTrip
import DiskUsage.Proofs.Scan.DrillDown

/-!
# Entries that are told links

An entry has no field for what it was made from: a link is told by the mark at the end of its name.  A
name may end in that mark by itself, and then what is no link is told a link as well.

* `Marked`: the name ends in the mark of a link.
* `DirEntry.isLink_iff_eq_link`: what is told a link is what could have been made as one.
* `name_of_listing?`: the name that a child is listed under; `isLink_of_listing?`: the children that are
  told links.
* `links_and_marked_names_are_told_links`: every child of a root that is scanned, and the text of its entry.
* `marked_file_is_told_a_link`: a file that is told a link.
-/

namespace DiskUsage

/-- The name ends in the mark of a link. -/
def Marked (name : String) : Prop :=
  ∃ stem, name = stem ++ DirEntry.linkMarker

/-! ### Entries -/

namespace DirEntry

variable (name : String) (path : Path) (size : Nat) (accessed : Option Timestamp)

theorem isLink_iff (e : DirEntry) : e.isLink = true ↔ Marked e.name := by
  unfold isLink Marked
  rw [List.isSuffixOf_iff_suffix]
  constructor
  · rintro ⟨stem, hstem⟩
    refine ⟨String.ofList stem, String.toList_inj.1 ?_⟩
    rw [String.toList_append, String.toList_ofList, hstem]
  · rintro ⟨stem, hstem⟩
    exact ⟨stem.toList, by rw [hstem, String.toList_append]⟩

theorem isLink_file : (file name path size accessed).isLink = true ↔ Marked name :=
  isLink_iff _

theorem isLink_directory :
    ((directory name path size).withLastAccess accessed).isLink = true ↔ Marked name :=
  isLink_iff _

/-- **What is told a link** is what could have been made as one: a file with a marked name is the very
entry that a link to a file would have. -/
theorem isLink_iff_eq_link (e : DirEntry) :
    e.isLink = true ↔ ∃ name path size isDir accessed, e = link name path size isDir accessed := by
  constructor
  · intro h
    obtain ⟨stem, hstem⟩ := e.isLink_iff.1 h
    exact ⟨stem, e.path, e.size, e.isDir, e.lastAccess, by rw [link, ← hstem]⟩
  · rintro ⟨name, path, size, isDir, accessed, rfl⟩
    exact isLink_link ..

/-- An entry is read back from its text. -/
theorem ofText?_of_written {e : DirEntry} (he : e.Fits) {write : Json → String}
    (hwrite : write = Json.compact ∨ write = Json.pretty) {text : String}
    (htext : e.toJson?.map write = some text) : ofText? text = some e := by
  obtain ⟨j, hj, rfl⟩ := Option.map_eq_some_iff.1 htext
  have hparse : Json.parse? (write j) = some j := by
    rcases hwrite with rfl | rfl
    · exact Json.parse?_compact (plain_toJson? hj)
    · exact Json.parse?_pretty (plain_toJson? hj)
  rw [ofText?, hparse]
  exact ofJson?_toJson? he hj

end DirEntry

/-! ### Children -/

variable {root : Path} {entries : List (String × Node)}

section Child

variable {s : ChildSetup} {e : DirEntry}

theorem Node.kind_eq_link_iff (node : Node) : node.kind = .link ↔ node.isLink = true := by
  cases node <;> simp [Node.kind, Node.isLink]

/-- The name that a child is listed under; only that of a link is marked. -/
theorem name_of_listing? {c : Located} (h : listing? s root c = some e) :
    e.name = if c.node.isLink then c.name ++ DirEntry.linkMarker else c.name := by
  have hkind := (s.config.classify_eq_link_iff (s.config.contextOf root) c.name c.path c.node.kind).trans
    c.node.kind_eq_link_iff
  rw [← if_congr hkind rfl rfl]
  rcases entry_of_sizeChild h with ⟨hlink, rfl⟩ | ⟨hfile, rfl⟩ | ⟨hnot, size, rfl⟩
  · rw [if_pos hlink]
    rfl
  · rw [if_neg (by rw [hfile]; nofun)]
    rfl
  · rw [if_neg hnot]
    rfl

/-- **A child** is told a link iff it is one or its name is marked. -/
theorem isLink_of_listing? {c : Located} (h : listing? s root c = some e) :
    e.isLink = true ↔ c.node.isLink = true ∨ Marked c.name := by
  rw [e.isLink_iff, name_of_listing? h]
  cases c.node.isLink with
  | true => exact iff_of_true ⟨c.name, rfl⟩ (.inl rfl)
  | false => simp

end Child

/-! ### All children of a root -/

/-- The entry of a scan stands for exactly one child. -/
theorem exists_child_of_mem_entries {s : ScanSetup} (hnames : ∀ e ∈ entries, FileSystem.IsEntryName e.1)
    (hdistinct : (entries.map Prod.fst).Nodup) {e : DirEntry}
    (he : e ∈ (scanResult s root (scanChildren s.toChildSetup root entries)).entries) :
    ∃ c ∈ childrenOf root entries, listing? s.toChildSetup root c = some e ∧
      ∀ d ∈ childrenOf root entries, d.path = e.path ↔ d = c := by
  have hlisted : e ∈ (scanChildren s.toChildSetup root entries).filterMap SizedChild.listed? :=
    TopN.mem_of_mem_largest he
  rw [listed_scanChildren, List.mem_filterMap] at hlisted
  obtain ⟨c, hc, hce⟩ := hlisted
  refine ⟨c, hc, hce, fun d hd => ⟨fun hpath => ?_, fun h => h ▸ (path_of_listing? hce).symm⟩⟩
  obtain ⟨⟨name, node⟩, hmem, rfl⟩ := List.mem_map.1 hd
  exact (eq_of_listing?_path hnames hdistinct hmem hc hce hpath.symm).symm

/-- **What is told a link.**  An entry of a scan stands for exactly one child, and is told a link iff
that child is a link or has a name that ends in the mark by itself.  So it is for what is made as a file
or as a directory; what is made as a link is always told one, and what is told one could have been made so.
Reading an entry back from its text changes nothing. -/
theorem links_and_marked_names_are_told_links {s : ScanSetup} (hlist : s.list root = .ok entries)
    (hstart : s.startFailure? entries.length = none)
    (hnames : ∀ e ∈ entries, FileSystem.IsEntryName e.1) (hdistinct : (entries.map Prod.fst).Nodup) :
    (∃ r, (scan s root).2 = .ok r ∧ ∀ e ∈ r.entries, ∃ c ∈ childrenOf root entries,
        (∀ d ∈ childrenOf root entries, d.path = e.path ↔ d = c) ∧
          (e.isLink = true ↔ c.node.isLink = true ∨ Marked c.name)) ∧
      (∀ name path size accessed,
        ((DirEntry.file name path size accessed).isLink = true ↔ Marked name) ∧
          (((DirEntry.directory name path size).withLastAccess accessed).isLink = true ↔ Marked name) ∧
          ∀ isDir, (DirEntry.link name path size isDir accessed).isLink = true) ∧
      (∀ e : DirEntry, e.isLink = true ↔
        ∃ name path size isDir accessed, e = .link name path size isDir accessed) ∧
      ∀ e : DirEntry, e.Fits → ∀ write, write = Json.compact ∨ write = Json.pretty →
        ∀ text, e.toJson?.map write = some text →
          ∃ d, DirEntry.ofText? text = some d ∧ d.isLink = e.isLink := by
  refine ⟨⟨_, congrArg Prod.snd (scan_eq_of_list hlist hstart), fun e he => ?_⟩,
    fun name path size accessed => ?_, DirEntry.isLink_iff_eq_link, ?_⟩
  · obtain ⟨c, hc, hce, hunique⟩ := exists_child_of_mem_entries hnames hdistinct he
    exact ⟨c, hc, hunique, isLink_of_listing? hce⟩
  · exact ⟨DirEntry.isLink_file .., DirEntry.isLink_directory .., fun _ => DirEntry.isLink_link ..⟩
  · intro e he write hwrite text htext
    exact ⟨e, DirEntry.ofText?_of_written he hwrite htext, rfl⟩

/-- A file with a marked name, a link to it, a directory with a marked name, and a plain file. -/
def markedEntries : List (String × Node) :=
  [("a →", .file ⟨0, .fill 10, none⟩), ("b", .link ⟨"a →"⟩ ⟨0, none⟩), ("d →", .dir .free none []),
    ("e", .file ⟨1, .fill 5, none⟩)]

/-- Surroundings with these in a directory. -/
def markedSurroundings : Surroundings :=
  { projectSurroundings 1000 with fs := ⟨.dir .free none [("w", .dir .free none markedEntries)], 2⟩ }

/-- What a scan depends on there. -/
def markedSetup : ScanSetup :=
  projectScanner.scanSetup markedSurroundings ⟨"/w"⟩

theorem isEntryName_of_markedEntries : ∀ e ∈ markedEntries, FileSystem.IsEntryName e.1 := by
  simp only [markedEntries, List.forall_mem_cons, List.not_mem_nil, false_imp_iff, implies_true, and_true]
  refine ⟨?_, ?_, ?_, ?_⟩ <;> exact ⟨by decide +kernel, by decide +kernel, by decide +kernel⟩

theorem three_of_four_are_told_links :
    markedSetup.list ⟨"/w"⟩ = .ok markedEntries ∧
      markedSetup.startFailure? markedEntries.length = none ∧
      (∀ e ∈ markedEntries, FileSystem.IsEntryName e.1) ∧ (markedEntries.map Prod.fst).Nodup ∧
      ∃ r, (scan markedSetup ⟨"/w"⟩).2 = .ok r ∧ r.entries.length = 4 ∧
        r.entries.countP DirEntry.isLink = 3 ∧
        ∀ e ∈ r.entries, ∃ c ∈ childrenOf ⟨"/w"⟩ markedEntries,
          (∀ d ∈ childrenOf ⟨"/w"⟩ markedEntries, d.path = e.path ↔ d = c) ∧
            (e.isLink = true ↔ c.node.isLink = true ∨ Marked c.name) := by
  have hlist : markedSetup.list ⟨"/w"⟩ = .ok markedEntries := by rfl
  have hstart : markedSetup.startFailure? markedEntries.length = none := by decide +kernel
  have hdistinct : (markedEntries.map Prod.fst).Nodup := by decide
  obtain ⟨r, hr, htold⟩ :=
    (links_and_marked_names_are_told_links hlist hstart isEntryName_of_markedEntries hdistinct).1
  have hcounts : r.entries.length = 4 ∧ r.entries.countP DirEntry.isLink = 3 := by
    cases hr
    decide +kernel
  exact ⟨hlist, hstart, isEntryName_of_markedEntries, hdistinct, r, hr, hcounts.1, hcounts.2, htold⟩

/-- A file whose name is marked is told a link. -/
theorem marked_file_is_told_a_link :
    ∃ node, ("a →", node) ∈ markedEntries ∧ node.isLink = false ∧
      ∃ r, (scan markedSetup ⟨"/w"⟩).2 = .ok r ∧
        ∃ e ∈ r.entries, e.path = Path.child ⟨"/w"⟩ "a →" ∧ e.isLink = true := by
  have hlist : markedSetup.list ⟨"/w"⟩ = .ok markedEntries := rfl
  have hscan := scan_eq_of_list hlist (by decide +kernel)
  refine ⟨_, List.mem_cons_self, rfl, _, congrArg Prod.snd hscan, ?_⟩
  refine ⟨.file "a →" ⟨"/w/a →"⟩ 10 none, ?_, by decide +kernel, by decide +kernel⟩
  decide +kernel

end DiskUsage
