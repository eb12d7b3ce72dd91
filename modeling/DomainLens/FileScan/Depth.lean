import DomainLens.FileScan.Walkers

/-!
# How deep a file is looked into

What a file holds is looked into in the same way, one level deeper.  An archive is not opened at the
last level, but a document with files packed into it is.
-/

namespace DomainLens
namespace FileScan

open Python

/-! ## The tree -/

/-- What a scan says of a file and of the files inside, without findings, links and digests. -/
inductive Node where
  | mk (name : Text) (size : Nat) (kind : Kind) (state : State) (reason : Option Text) (depth : Nat)
      (children : List Node)

namespace Node

def depth : Node → Nat
  | mk _ _ _ _ _ depth _ => depth

def children : Node → List Node
  | mk _ _ _ _ _ _ children => children

end Node

/-- The files handed on, scanned in order until an exception. -/
def goInto (scan : File → Raises Node) : List File → List Node × Option Text
  | [] => ([], none)
  | file :: files =>
      match scan file with
      | .error name => ([], some name)
      | .ok child =>
          let (children, raised) := goInto scan files
          (child :: children, raised)

/-- What `scan` returns of a file when the files inside are scanned. -/
def nodeOf (name : Option Text) (data : Bytes) (kind : Kind) (walk : Walk) (depth : Nat)
    (children : List Node) (stopped : Option Text) : Node :=
  let shown := (name.filter (· ≠ [])).getD "(unnamed)".toList
  match stopped.or walk.raised with
  | none => .mk shown data.length kind walk.state walk.reason depth children
  | some raised => .mk shown data.length kind .unmeasured
      (some ("The file could not be read to the end (".toList ++ raised ++ ").".toList)) depth children

/-- `scan`; `stack` is how many calls of it the interpreter still allows within one another. -/
def scan (readers : Readers) : Nat → Bytes → Option Text → Nat → Raises Node
  | 0, _, _, _ => .error "RecursionError".toList
  | stack + 1, data, name, depth =>
      match sniff readers data with
      | .error raised => .error raised
      | .ok kind =>
          let walk := walkOf readers kind data name depth
          let (children, stopped) := goInto (fun file =>
            scan readers stack file.data (some file.name) (depth + 1)) walk.files
          .ok (nodeOf name data kind walk depth children stopped)

inductive Within : Node → Node → Prop
  | root (tree : Node) : Within tree tree
  | inside {node child tree : Node} (isChild : child ∈ tree.children) (within : Within node child) :
      Within node tree

/-- No node of the tree of a file is deeper than the ceiling. -/
def Bounded (readers : Readers) (data : Bytes) : Prop :=
  ∀ stack name tree, scan readers stack data name 0 = .ok tree →
    ∀ node, Within node tree → node.depth ≤ maxDepth

/-! ## The files inside -/

def isTold (readers : Readers) (data : Bytes) : Bool :=
  match sniff readers data with
  | .ok _ => true
  | .error _ => false

/-- At a depth a file holds another, which is scanned: all before it are told their kind. -/
def Opens (readers : Readers) (depth : Nat) (data inner : Bytes) : Prop :=
  ∃ kind, sniff readers data = .ok kind ∧
    inner ∈ ((walkOf readers kind data none depth).files.map File.data).takeWhile (isTold readers)

/-- Two levels down there is an OLE document with a file packed into it. -/
def DeepPackage (readers : Readers) (data : Bytes) : Prop :=
  ∃ first, Opens readers 0 data first ∧ ∃ second, Opens readers 1 first second ∧
    sniff readers second = .ok .ole ∧ ∃ third, Opens readers 2 second third

variable {readers : Readers}

private theorem data_walkOf (kind : Kind) (data : Bytes) (name : Option Text) (depth : Nat) :
    (walkOf readers kind data name depth).files.map File.data =
      (walkOf readers kind data none depth).files.map File.data := by
  cases kind <;> try rfl
  simp only [walkOf]
  cases readers.inflate data maxMember with
  | error raised => rfl
  | ok inner =>
      simp only [Walk.done]
      split <;> rfl

private theorem files_zipMembers {data : Bytes} {members : List (Member × Nat)} {walk : Walk}
    (listed : zipMembers readers data = .ok (members, walk)) : walk.files = [] := by
  unfold zipMembers at listed
  split at listed
  · cases listed
  · cases listed
    rfl
  · dsimp only at listed
    split_ifs at listed <;> cases listed <;> rfl

private theorem walkParts_of_deep {depth : Nat} (deep : maxDepth ≤ depth) (parts files : List File) :
    (walkParts depth parts files).1 = files := by
  induction parts generalizing files with
  | nil => rfl
  | cons part parts induction =>
      rw [walkParts]
      split
      · rfl
      · rw [if_neg fun inside => absurd inside.2.1 (Nat.not_lt.mpr deep)]
        exact induction files

private theorem files_of_deep {depth : Nat} (deep : maxDepth ≤ depth) {kind : Kind}
    (other : kind ≠ .ole) (data : Bytes) (name : Option Text) :
    (walkOf readers kind data name depth).files = [] := by
  have shallow : ¬ depth < maxDepth := Nat.not_lt.mpr deep
  cases kind with
  | ole => exact absurd rfl other
  | pdf =>
      simp only [walkOf]
      cases readers.pdf data with
      | error raised => rfl
      | ok pdf => simp [shallow]
  | ooxml =>
      simp only [walkOf, walkOoxml]
      cases zipMembers readers data with
      | error raised => rfl
      | ok listed =>
          obtain ⟨members, walk⟩ := listed
          dsimp only
          cases readParts readers data members maxUnpacked [] with
          | error raised => rfl
          | ok parts => exact walkParts_of_deep deep parts []
  | zip =>
      simp only [walkOf, walkZip]
      cases listed : zipMembers readers data with
      | error raised => rfl
      | ok answer =>
          obtain ⟨members, walk⟩ := answer
          dsimp only
          rw [if_pos deep]
          exact files_zipMembers listed
  | rtf => simp [walkOf, walkRtf, Walk.done, shallow]
  | gzip =>
      simp only [walkOf]
      cases readers.inflate data maxMember with
      | error raised => rfl
      | ok inner => simp [Walk.done, shallow]
  | _ => rfl

/-! ## What a scan makes of them -/

private theorem depth_nodeOf (name : Option Text) (data : Bytes) (kind : Kind) (walk : Walk)
    (depth : Nat) (children : List Node) (stopped : Option Text) :
    (nodeOf name data kind walk depth children stopped).depth = depth ∧
      (nodeOf name data kind walk depth children stopped).children = children := by
  unfold nodeOf
  dsimp only
  split <;> exact ⟨rfl, rfl⟩

private theorem scan_eq_ok {stack : Nat} {data : Bytes} {name : Option Text} {depth : Nat}
    {tree : Node} : scan readers (stack + 1) data name depth = .ok tree ↔
      ∃ kind, sniff readers data = .ok kind ∧
        nodeOf name data kind (walkOf readers kind data name depth) depth
          (goInto (fun file => scan readers stack file.data (some file.name) (depth + 1))
            (walkOf readers kind data name depth).files).1
          (goInto (fun file => scan readers stack file.data (some file.name) (depth + 1))
            (walkOf readers kind data name depth).files).2 = tree := by
  rw [scan]
  cases sniff readers data with
  | error raised => simp
  | ok kind => simp

private theorem isTold_iff {data : Bytes} : isTold readers data = true ↔
    ∃ kind, sniff readers data = .ok kind := by
  unfold isTold
  cases sniff readers data with
  | error raised => simp
  | ok kind => simp

private theorem mem_goInto {scan : File → Raises Node}
    (told : ∀ file child, scan file = .ok child → isTold readers file.data = true)
    {files : List File} {child : Node} (member : child ∈ (goInto scan files).1) :
    ∃ file, file.data ∈ (files.map File.data).takeWhile (isTold readers) ∧
      scan file = .ok child := by
  induction files with
  | nil => cases member
  | cons file files induction =>
      rw [goInto] at member
      cases scanned : scan file with
      | error raised =>
          rw [scanned] at member
          cases member
      | ok first =>
          rw [scanned] at member
          rw [List.map_cons, List.takeWhile_cons, if_pos (told file first scanned)]
          rcases List.mem_cons.mp member with rfl | later
          · exact ⟨file, List.mem_cons_self, scanned⟩
          · obtain ⟨other, inside, isChild⟩ := induction later
            exact ⟨other, List.mem_cons_of_mem _ inside, isChild⟩

private theorem exists_mem_goInto {scan : File → Raises Node}
    (scans : ∀ file, isTold readers file.data = true → ∃ child, scan file = .ok child)
    {files : List File} {inner : Bytes}
    (opened : inner ∈ (files.map File.data).takeWhile (isTold readers)) :
    ∃ file child, file.data = inner ∧ scan file = .ok child ∧ child ∈ (goInto scan files).1 := by
  induction files with
  | nil => cases opened
  | cons file files induction =>
      rw [List.map_cons, List.takeWhile_cons] at opened
      split at opened
      · rename_i told
        obtain ⟨first, scanned⟩ := scans file told
        rw [goInto, scanned]
        rcases List.mem_cons.mp opened with rfl | later
        · exact ⟨file, first, rfl, scanned, List.mem_cons_self⟩
        · obtain ⟨other, child, same, isChild, member⟩ := induction later
          exact ⟨other, child, same, isChild, List.mem_cons_of_mem _ member⟩
      · cases opened

private theorem of_mem_children {stack : Nat} {data : Bytes} {name : Option Text} {depth : Nat}
    {tree child : Node} (scanned : scan readers stack data name depth = .ok tree)
    (member : child ∈ tree.children) : ∃ stack' inner name', Opens readers depth data inner ∧
      scan readers stack' inner name' (depth + 1) = .ok child := by
  cases stack with
  | zero => cases scanned
  | succ stack =>
      obtain ⟨kind, isKind, rfl⟩ := scan_eq_ok.mp scanned
      rw [(depth_nodeOf ..).2] at member
      have told (file : File) (child : Node) (scanned : scan readers stack file.data (some file.name)
          (depth + 1) = .ok child) : isTold readers file.data = true := by
        cases stack with
        | zero => cases scanned
        | succ stack =>
            obtain ⟨kind, isKind, -⟩ := scan_eq_ok.mp scanned
            exact isTold_iff.mpr ⟨kind, isKind⟩
      obtain ⟨file, inside, isChild⟩ := mem_goInto told member
      rw [data_walkOf] at inside
      exact ⟨stack, file.data, some file.name, ⟨kind, isKind, inside⟩, isChild⟩

private theorem exists_child {stack : Nat} {data inner : Bytes} {name : Option Text} {depth : Nat}
    (opens : Opens readers depth data inner) :
    ∃ tree child name', scan readers (stack + 2) data name depth = .ok tree ∧
      child ∈ tree.children ∧ scan readers (stack + 1) inner name' (depth + 1) = .ok child := by
  obtain ⟨kind, isKind, inside⟩ := opens
  rw [← data_walkOf kind data name depth] at inside
  have scans (file : File) (told : isTold readers file.data = true) : ∃ child,
      scan readers (stack + 1) file.data (some file.name) (depth + 1) = .ok child := by
    obtain ⟨kind, isKind⟩ := isTold_iff.mp told
    exact ⟨_, scan_eq_ok.mpr ⟨kind, isKind, rfl⟩⟩
  obtain ⟨file, child, rfl, isChild, member⟩ := exists_mem_goInto scans inside
  refine ⟨_, child, some file.name, scan_eq_ok.mpr ⟨kind, isKind, rfl⟩, ?_, isChild⟩
  rw [(depth_nodeOf ..).2]
  exact member

private theorem depth_of_scan {stack : Nat} {data : Bytes} {name : Option Text} {depth : Nat}
    {tree : Node} (scanned : scan readers stack data name depth = .ok tree) : tree.depth = depth := by
  cases stack with
  | zero => cases scanned
  | succ stack =>
      obtain ⟨kind, -, rfl⟩ := scan_eq_ok.mp scanned
      exact (depth_nodeOf ..).1

private theorem sniff_of_opens {depth : Nat} (deep : maxDepth ≤ depth) {data inner : Bytes}
    (opens : Opens readers depth data inner) : sniff readers data = .ok .ole := by
  obtain ⟨kind, isKind, inside⟩ := opens
  by_cases isOle : kind = .ole
  · exact isOle ▸ isKind
  · rw [files_of_deep deep isOle] at inside
    cases inside

private theorem bounded_of_not_deep {data : Bytes} (shallow : ¬ DeepPackage readers data) :
    Bounded readers data := by
  intro stack name tree scanned node within
  have top := depth_of_scan scanned
  cases within with
  | root => exact top ▸ Nat.zero_le _
  | inside isFirst within =>
      obtain ⟨stack, first, name, opensFirst, scanned⟩ := of_mem_children scanned isFirst
      cases within with
      | root => rw [depth_of_scan scanned]; decide
      | inside isSecond within =>
          obtain ⟨stack, second, name, opensSecond, scanned⟩ := of_mem_children scanned isSecond
          cases within with
          | root => rw [depth_of_scan scanned]; decide
          | inside isThird within =>
              obtain ⟨_, third, _, opensThird, -⟩ := of_mem_children scanned isThird
              exact absurd ⟨first, opensFirst, second, opensSecond,
                sniff_of_opens le_rfl opensThird, third, opensThird⟩ shallow

private theorem not_bounded_of_deep {data : Bytes} (deep : DeepPackage readers data) :
    ¬ Bounded readers data := by
  obtain ⟨first, opensFirst, second, opensSecond, -, third, opensThird⟩ := deep
  obtain ⟨tree, child, name, scanned, isFirst, isChild⟩ :=
    @exists_child readers 2 data first none 0 opensFirst
  obtain ⟨tree', child', name', scanned', isSecond, isChild'⟩ :=
    @exists_child readers 1 first second name 1 opensSecond
  obtain rfl := Except.ok.inj (isChild.symm.trans scanned')
  obtain ⟨tree'', child'', name'', scanned'', isThird, isChild''⟩ :=
    @exists_child readers 0 second third name' 2 opensThird
  obtain rfl := Except.ok.inj (isChild'.symm.trans scanned'')
  intro bounded
  have within : Within child'' tree := .inside isFirst (.inside isSecond (.inside isThird (.root _)))
  have limit := bounded 4 none tree scanned child'' within
  rw [depth_of_scan isChild''] at limit
  exact absurd limit (by decide)

/-- The tree of a file keeps to the ceiling exactly when two levels down no document has a file packed
into it. -/
theorem bounded_iff (readers : Readers) (data : Bytes) :
    Bounded readers data ↔ ¬ DeepPackage readers data :=
  ⟨fun bounded deep => not_bounded_of_deep deep bounded, bounded_of_not_deep⟩

/-! ## Documents within documents -/

/-- A number in two bytes, the lower first. -/
def little16 (value : Nat) : Bytes := [UInt8.ofNat value, UInt8.ofNat (value / 2 ^ 8)]

/-- A number in four bytes, the lowest first. -/
def little32 (value : Nat) : Bytes :=
  [UInt8.ofNat value, UInt8.ofNat (value / 2 ^ 8), UInt8.ofNat (value / 2 ^ 16),
    UInt8.ofNat (value / 2 ^ 24)]

/-- The header of an OLE file with one sector of allocations and one of its directory. -/
def oleHeader : Bytes :=
  oleMagic ++ List.replicate 16 0 ++ little16 0x3e ++ little16 3 ++ little16 0xfffe ++ little16 9 ++
    little16 6 ++ List.replicate 6 0 ++ little32 0 ++ little32 1 ++ little32 1 ++ little32 0 ++
    little32 4096 ++ little32 0xfffffffe ++ little32 0 ++ little32 0xfffffffe ++ little32 0 ++
    little32 0 ++ List.replicate 432 0xff

/-- The allocations: a stream of some sectors follows those of the tables. -/
def allocations (sectors : Nat) : Bytes :=
  ([0xfffffffd, 0xfffffffe] ++ (List.range (sectors - 1)).map (· + 3) ++ [0xfffffffe] ++
    List.replicate (126 - sectors) 0xffffffff).flatMap little32

/-- An entry of the directory: its name, type, child, first sector and size. -/
def directoryEntry (name : String) (type : UInt8) (child start size : Nat) : Bytes :=
  let wide := name.toList.flatMap fun char => [char.toUInt8, 0]
  wide ++ List.replicate (64 - wide.length) 0 ++ little16 (wide.length + 2) ++ [type, 1] ++
    little32 0xffffffff ++ little32 0xffffffff ++ little32 child ++ List.replicate 36 0 ++
    little32 start ++ little32 size ++ little32 0

/-- The stream of a packed file, filled up to whole sectors. -/
def packedStream (sectors : Nat) (content : Bytes) : Bytes :=
  little32 0 ++ little16 2 ++ [0x61, 0, 0x61, 0] ++ little32 0x30000 ++ little32 2 ++ [0x61, 0] ++
    little32 content.length ++ content ++ List.replicate (512 * sectors - 24 - content.length) 0

/-- A document with one file packed into it. -/
def document (sectors : Nat) (content : Bytes) : Bytes :=
  oleHeader ++ allocations sectors ++
    (directoryEntry "Root Entry" 5 1 0xfffffffe 0 ++
      directoryEntry "\x01Ole10Native" 2 0xffffffff 2 (512 * sectors) ++ List.replicate 256 0) ++
    packedStream sectors content

/-- What a library reads of such a document. -/
def documentOf (sectors : Nat) (content : Bytes) : Ole where
  entries := [(["\x01Ole10Native".toList], true)]
  stream _ := .ok (packedStream sectors content)

/-- A program in a document in a document in a document. -/
def program : Bytes := ascii "MZ"

def inner : Bytes := document 8 program

def middle : Bytes := document 12 inner

def outer : Bytes := document 16 middle

/-- Libraries that read these documents. -/
def readDocuments : Readers where
  zip _ := .unreadable
  member _ _ _ := .error "BadZipFile".toList
  ole data :=
    if data = outer then some (documentOf 16 middle)
    else if data = middle then some (documentOf 12 inner)
    else if data = inner then some (documentOf 8 program)
    else none
  inflate _ _ := .error "error".toList
  pdf _ := .error "PdfError".toList

private theorem word32_little (value : Nat) (small : value < 2 ^ 32) (rest : Bytes) :
    word32 (little32 value ++ rest) 0 = some value := by
  simp only [word32, little32, List.cons_append, List.nil_append, List.drop_zero, Option.some_inj,
    UInt8.toNat_ofNat']
  omega

private theorem packedAt_eq {skip labelEnd pathEnd tempLen size : Nat} {data label : Bytes}
    (isLabelEnd : indexZero data (skip + 2) = some labelEnd)
    (isPathEnd : indexZero data (labelEnd + 1) = some pathEnd)
    (isTempLen : word32 data (pathEnd + 5) = some tempLen)
    (isSize : word32 data (pathEnd + 9 + tempLen) = some size) (positive : 0 < size)
    (fits : size + (pathEnd + 13 + tempLen) ≤ data.length)
    (isLabel : (data.drop (skip + 2)).take (labelEnd - (skip + 2)) = label) (named : label ≠ []) :
    packedAt skip data =
      some ⟨latin1 label, (data.drop (pathEnd + 13 + tempLen)).take size⟩ := by
  have solid : latin1 label ≠ [] := by simpa [latin1] using named
  unfold packedAt
  rw [isLabelEnd, Option.bind_eq_bind, Option.bind_some, isPathEnd, Option.bind_some, isTempLen,
    Option.bind_some, isSize, Option.bind_some]
  dsimp only
  rw [if_pos ⟨positive, fits⟩, isLabel, if_neg solid]

private theorem length_packedStream {sectors : Nat} {content : Bytes}
    (fits : content.length + 24 ≤ 512 * sectors) :
    (packedStream sectors content).length = 512 * sectors := by
  simp only [packedStream, little32, little16, List.length_append, List.length_cons,
    List.length_nil, List.length_replicate]
  omega

private theorem ole10native_packedStream {sectors : Nat} {content : Bytes} (solid : content ≠ [])
    (fits : content.length + 24 ≤ 512 * sectors) (small : 512 * sectors < 2 ^ 24) :
    ole10native ((packedStream sectors content).take maxMember) = some ⟨['a'], content⟩ := by
  have length := length_packedStream fits
  have whole : (packedStream sectors content).take maxMember = packedStream sectors content := by
    refine List.take_of_length_le ?_
    rw [length, maxMember]
    omega
  have reached (pos : Nat) (early : pos ≤ 24) : pos ≤ (packedStream sectors content).length := by
    have := List.length_pos_of_ne_nil solid
    omega
  have labelEnd : indexZero (packedStream sectors content) 6 = some 7 := by
    rw [indexZero, if_pos (reached 6 (by decide))]
    rfl
  have pathEnd : indexZero (packedStream sectors content) 8 = some 9 := by
    rw [indexZero, if_pos (reached 8 (by decide))]
    rfl
  have temporary : word32 (packedStream sectors content) 14 = some 2 := rfl
  have size : word32 (packedStream sectors content) 20 = some content.length :=
    word32_little content.length (by omega)
      (content ++ List.replicate (512 * sectors - 24 - content.length) 0)
  have taken : ((packedStream sectors content).drop 24).take content.length = content :=
    List.take_left' rfl
  have positive := List.length_pos_of_ne_nil solid
  have read : packedAt 4 (packedStream sectors content) = some ⟨latin1 [0x61],
      ((packedStream sectors content).drop 24).take content.length⟩ :=
    packedAt_eq labelEnd pathEnd temporary size positive (length ▸ fits) rfl (by decide)
  rw [whole, ole10native, read, taken]
  rfl

private theorem document_facts :
    isTold readDocuments program = true ∧ isPackage ["\x01Ole10Native".toList] = true ∧
      (documentOf 0 []).encrypted = false ∧
      ∀ sectors ∈ [8, 12, 16], (oleHeader ++ allocations sectors).length = 1024 ∧
        contains (ascii "%PDF-") (oleHeader ++ allocations sectors) = false ∧
        ∀ other ∈ [8, 12, 16], other ≠ sectors → allocations other ≠ allocations sectors := by
  decide +kernel

private theorem take_document {sectors : Nat} (isSize : sectors ∈ [8, 12, 16]) (content : Bytes) :
    (document sectors content).take 1024 = oleHeader ++ allocations sectors := by
  obtain ⟨-, -, -, facts⟩ := document_facts
  rw [document, List.append_assoc]
  exact List.take_left' (facts sectors isSize).1

private theorem document_ne {left right : Nat} (isLeft : left ∈ [8, 12, 16])
    (isRight : right ∈ [8, 12, 16]) (differ : left ≠ right) (content other : Bytes) :
    document left content ≠ document right other := by
  obtain ⟨-, -, -, facts⟩ := document_facts
  intro same
  have tables := congrArg (List.take 1024) same
  rw [take_document isLeft, take_document isRight] at tables
  exact (facts right isRight).2.2 left isLeft differ (List.append_cancel_left tables)

private theorem sniff_document {sectors : Nat} (isSize : sectors ∈ [8, 12, 16]) (content : Bytes) :
    sniff readDocuments (document sectors content) = .ok .ole := by
  obtain ⟨-, -, -, facts⟩ := document_facts
  have notPdf : isPdf (document sectors content) = false := by
    rw [isPdf, take_document isSize]
    exact (facts sectors isSize).2.1
  have magic : oleMagic.isPrefixOf ((document sectors content).take 4096) = true := rfl
  simp only [sniff, notPdf, magic, Bool.false_eq_true, if_false, if_true]

private theorem opens_document {sectors : Nat} (isSize : sectors ∈ [8, 12, 16]) {content : Bytes}
    (solid : content ≠ []) (fits : content.length + 24 ≤ 512 * sectors)
    (told : isTold readDocuments content = true)
    (reads : readDocuments.ole (document sectors content) = some (documentOf sectors content))
    (depth : Nat) : Opens readDocuments depth (document sectors content) content := by
  obtain ⟨-, isStream, plain, -⟩ := document_facts
  have small : 512 * sectors < 2 ^ 24 := by
    simp only [List.mem_cons, List.not_mem_nil, or_false] at isSize
    omega
  have packed : (documentOf sectors content).packed = [⟨['a'], content⟩] := by
    simp only [Ole.packed, documentOf, List.filter_cons, List.filter_nil, List.map_cons, List.map_nil,
      List.filterMap_cons, List.filterMap_nil, isStream, if_true,
      ole10native_packedStream solid fits small]
  have decoded : (documentOf sectors content).encrypted = false := plain
  refine ⟨.ole, sniff_document isSize content, ?_⟩
  simp [walkOf, walkOle, reads, decoded, packed, Walk.done, maxChildren, told]

private theorem length_directoryEntry {name : String} {type : UInt8} {child start size : Nat}
    (short : name.toList.length ≤ 32) : (directoryEntry name type child start size).length = 128 := by
  have wide : (name.toList.flatMap fun char => [char.toUInt8, 0]).length = 2 * name.toList.length := by
    simp [List.length_flatMap, Nat.mul_comm]
  simp only [directoryEntry, little32, little16, List.length_append, List.length_cons,
    List.length_nil, List.length_replicate, wide]
  omega

private theorem length_document {sectors : Nat} (isSize : sectors ∈ [8, 12, 16]) {content : Bytes}
    (fits : content.length + 24 ≤ 512 * sectors) :
    (document sectors content).length = 1536 + 512 * sectors := by
  obtain ⟨-, -, -, facts⟩ := document_facts
  have tables := (facts sectors isSize).1
  have root : "Root Entry".toList.length ≤ 32 := by decide
  have stream : "\x01Ole10Native".toList.length ≤ 32 := by decide
  rw [document, List.length_append, List.length_append, tables, length_packedStream fits,
    List.length_append, List.length_append, length_directoryEntry root, length_directoryEntry stream,
    List.length_replicate]

private theorem read_outer : readDocuments.ole outer = some (documentOf 16 middle) := by
  simp only [readDocuments, if_true]

private theorem read_middle : readDocuments.ole middle = some (documentOf 12 inner) := by
  have other : middle ≠ outer :=
    @document_ne 12 16 (by decide) (by decide) (by decide) inner middle
  simp only [readDocuments, if_neg other, if_true]

private theorem read_inner : readDocuments.ole inner = some (documentOf 8 program) := by
  have other : inner ≠ outer :=
    @document_ne 8 16 (by decide) (by decide) (by decide) program middle
  have another : inner ≠ middle :=
    @document_ne 8 12 (by decide) (by decide) (by decide) program inner
  simp only [readDocuments, if_neg other, if_neg another, if_true]

/-- Three documents within one another take the tree a level too deep. -/
theorem outer_too_deep : ¬ Bounded readDocuments outer := by
  have fitsProgram : program.length + 24 ≤ 512 * 8 := by decide
  have lengthInner : inner.length = 1536 + 512 * 8 := length_document (by decide) fitsProgram
  have fitsInner : inner.length + 24 ≤ 512 * 12 := by
    rw [lengthInner]
    decide
  have lengthMiddle : middle.length = 1536 + 512 * 12 := length_document (by decide) fitsInner
  have fitsMiddle : middle.length + 24 ≤ 512 * 16 := by
    rw [lengthMiddle]
    decide
  have sniffInner : sniff readDocuments inner = .ok .ole := sniff_document (by decide) program
  have sniffMiddle : sniff readDocuments middle = .ok .ole := sniff_document (by decide) inner
  have solidInner : inner ≠ [] := List.ne_nil_of_length_pos (lengthInner ▸ by decide)
  have solidMiddle : middle ≠ [] := List.ne_nil_of_length_pos (lengthMiddle ▸ by decide)
  have first : Opens readDocuments 0 outer middle :=
    @opens_document 16 (by decide) middle solidMiddle fitsMiddle
      (isTold_iff.mpr ⟨.ole, sniffMiddle⟩) read_outer 0
  have second : Opens readDocuments 1 middle inner :=
    @opens_document 12 (by decide) inner solidInner fitsInner
      (isTold_iff.mpr ⟨.ole, sniffInner⟩) read_middle 1
  have third : Opens readDocuments 2 inner program :=
    @opens_document 8 (by decide) program (by decide) fitsProgram document_facts.1 read_inner 2
  exact not_bounded_of_deep ⟨middle, first, inner, second, sniffInner, program, third⟩

end FileScan
end DomainLens
