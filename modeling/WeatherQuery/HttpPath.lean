import WeatherQuery.HttpCalls
import WeatherQuery.PathWalk

/-!
The paths a request reaches.

`accept_request` puts `htdocs` before the url as it comes, and nothing looks for `..` in it. The
paths it hands to `stat`, `open` and `execl` are relative to the directory the server runs in.
-/

namespace WeatherQuery.HttpPath

open WeatherQuery.CText WeatherQuery.Traced WeatherQuery.HttpModel
open WeatherQuery.HttpCalls WeatherQuery.PathWalk

def slash : UInt8 := '/'.toUInt8

/-- What a component of a path does. -/
def moveOf (c : Bytes) : Move Bytes :=
  if c = [] ∨ c = lit ['.'] then .stay else if c = lit ['.', '.'] then .up else .down c

def moves (path : Bytes) : List (Move Bytes) := (path.splitOn slash).map moveOf

/-- The place a path denotes in a process that runs in `cwd`, with `.` and `..` resolved. -/
def denotes (cwd : List Bytes) (path : Bytes) : List Bytes :=
  walk (if path.head? = some slash then [] else cwd) (moves path)

/-- The path denotes `htdocs` or something below it. -/
def Confined (cwd : List Bytes) (path : Bytes) : Prop := cwd ++ [htdocs] <+: denotes cwd path

instance (cwd : List Bytes) (path : Bytes) : Decidable (Confined cwd path) :=
  inferInstanceAs (Decidable (_ <+: _))

/-- The path a call is made on. -/
def pathOf : Event → Option Bytes
  | .stat path | .openFile path => some path
  | .execl child => some child.path
  | _ => none

/-- The url stays in `htdocs`: it starts with a `/`, or is empty, and never has more `..` than
names before it; or it does climb out, and from where it gets to goes down to `htdocs` again. -/
def Inside (cwd : List Bytes) (url : Bytes) : Prop :=
  let n := net (moves url).tail
  ((url.splitOn slash).head? = some [] ∧ n.ups = 0) ∨
    (1 ≤ n.ups ∧ cwd.drop (cwd.length - (n.ups - 1)) ++ [htdocs] <+: n.names)

instance (cwd : List Bytes) (url : Bytes) : Decidable (Inside cwd url) :=
  inferInstanceAs (Decidable (_ ∨ _))

/-! ### The path made of a url -/

lemma splitOn_append_left {sep : UInt8} {a : Bytes} (ha : sep ∉ a) (b : Bytes) :
    (a ++ b).splitOn sep = (b.splitOn sep).modifyHead (a ++ ·) := by
  induction a with
  | nil => exact (congrFun List.modifyHead_id _).symm
  | cons c a ih =>
    have hc : (c == sep) = false := by
      rw [beq_eq_false_iff_ne]
      rintro rfl
      simp at ha
    rw [List.cons_append, List.splitOn_cons_eq_if_modifyHead, hc,
      ih fun h => ha (List.mem_cons_of_mem c h)]
    simp [List.modifyHead_modifyHead, Function.comp_def]

lemma moveOf_htdocs (c : Bytes) : moveOf (htdocs ++ c) = .down (htdocs ++ c) := by
  have h1 : htdocs ++ c ≠ [] := by simp [htdocs, lit]
  have h2 : htdocs ++ c ≠ lit ['.'] := by simp [htdocs, lit]
  have h3 : htdocs ++ c ≠ lit ['.', '.'] := by simp [htdocs, lit]
  simp [moveOf, h1, h2, h3]

/-- A path ends in a `/` when its url does. -/
lemma last_htdocs_iff (url : Bytes) :
    (htdocs ++ url).getLast? = some '/'.toUInt8 ↔ url.getLast? = some '/'.toUInt8 := by
  rw [List.getLast?_append]
  rcases url.getLast? with _ | c
  · exact iff_of_false (by decide) (by simp)
  · rfl

lemma moves_htdocs (url : Bytes) :
    moves (htdocs ++ url) =
      .down (htdocs ++ (url.splitOn slash).headD []) :: (moves url).tail := by
  unfold moves
  rw [splitOn_append_left (by decide)]
  rcases h : url.splitOn slash with _ | ⟨c, cs⟩
  · exact absurd h (List.splitOn_ne_nil slash url)
  · simp [moveOf_htdocs]

lemma denotes_htdocs (cwd : List Bytes) (url : Bytes) :
    denotes cwd (htdocs ++ url) = walk cwd (moves (htdocs ++ url)) := by
  have h : (htdocs ++ url).head? ≠ some slash :=
    fun h => absurd (Option.some.inj h) (by decide)
  rw [denotes, if_neg h]

lemma confined_htdocs_iff (cwd : List Bytes) (url : Bytes) :
    Confined cwd (htdocs ++ url) ↔ Inside cwd url := by
  unfold Confined Inside
  rw [denotes_htdocs, moves_htdocs, below_iff]
  have hhead : htdocs ++ (url.splitOn slash).headD [] = htdocs ↔
      (url.splitOn slash).head? = some [] := by
    rcases h : url.splitOn slash with _ | ⟨c, cs⟩
    · exact absurd h (List.splitOn_ne_nil slash url)
    · simp
  rw [hhead]

/-! ### The main page -/

lemma denotes_page (cwd : List Bytes) (url : Bytes) :
    denotes cwd (htdocs ++ url ++ slash :: mainPage) =
      denotes cwd (htdocs ++ url) ++ [mainPage] := by
  have hpage : moves mainPage = [.down mainPage] := by decide
  rw [List.append_assoc, denotes_htdocs, denotes_htdocs, ← List.append_assoc]
  have hsplit : moves (htdocs ++ url ++ slash :: mainPage) =
      moves (htdocs ++ url) ++ moves mainPage := by
    unfold moves
    rw [List.splitOn_append_cons_self, List.map_append]
  rw [hsplit, walk_append, hpage]
  rfl

/-- The main page of a directory is as confined as the directory. -/
lemma confined_page_iff (cwd : List Bytes) (url : Bytes) :
    Confined cwd (htdocs ++ url ++ slash :: mainPage) ↔ Confined cwd (htdocs ++ url) := by
  unfold Confined
  rw [denotes_page, below_down (by decide)]

lemma denotes_slash (cwd : List Bytes) (url : Bytes) :
    denotes cwd (htdocs ++ url ++ [slash]) = denotes cwd (htdocs ++ url) := by
  rw [List.append_assoc, denotes_htdocs, denotes_htdocs, ← List.append_assoc]
  have hsplit : moves (htdocs ++ url ++ [slash]) = moves (htdocs ++ url) ++ [.stay] := by
    unfold moves
    rw [List.splitOn_append_cons_self, List.map_append]
    rfl
  rw [hsplit, walk_append]
  rfl

lemma confined_docPath_iff (cwd : List Bytes) (url : Bytes) :
    Confined cwd (docPath url) ↔ Confined cwd (htdocs ++ url) := by
  unfold docPath
  split_ifs with hlast
  · obtain ⟨front, hfront⟩ : ∃ front, url = front ++ [slash] := by
      rcases List.eq_nil_or_concat url with rfl | ⟨front, c, rfl⟩
      · exact absurd hlast (by decide)
      · rw [List.concat_eq_append, ← List.append_assoc, List.getLast?_concat] at hlast
        exact ⟨front, by rw [List.concat_eq_append, Option.some.inj hlast, slash]⟩
    subst hfront
    rw [← List.append_assoc, List.append_assoc _ [slash], List.singleton_append, confined_page_iff]
    unfold Confined
    rw [denotes_slash]
  · exact Iff.rfl

/-- A path made of a url has the form the server's paths have. -/
lemma docPath_form (url : Bytes) : ∃ tail, docPath url = htdocs ++ tail := by
  unfold docPath
  split_ifs
  · exact ⟨url ++ mainPage, List.append_assoc _ _ _⟩
  · exact ⟨url, rfl⟩

lemma confined_servePath_iff (cwd : List Bytes) (st : Stat) (url : Bytes) :
    Confined cwd (servePath st (docPath url)) ↔ Confined cwd (docPath url) := by
  unfold servePath
  split_ifs
  · obtain ⟨tail, htail⟩ := docPath_form url
    rw [htail]
    exact confined_page_iff cwd tail
  · exact Iff.rfl

/-! ### Requests -/

/-- Every call the answer makes on a path makes it on its own. -/
lemma inner_pathOf {path p : Bytes} {e : Event} (h : Inner path e) (hp : pathOf e = some p) :
    p = path := by
  cases e with
  | openFile q => exact (Option.some.inj hp).symm.trans h
  | execl child => exact (Option.some.inj hp).symm.trans h
  | stat q => exact absurd h id
  | _ => simp [HttpPath.pathOf] at hp

lemma pathOf_opening (w : World) : ∀ e ∈ opening w, pathOf e = none := by
  intro e he
  rcases List.mem_append.mp he with he | he
  · have hrecv := emits_getLine bufSize w e he
    cases e with
    | recv peek got => rfl
    | _ => exact absurd hrecv id
  · obtain rfl := List.mem_singleton.mp he
    rfl

/-- A request that gets as far as `stat`. -/
lemma confined_answer_iff {cwd : List Bytes} {w : World} {q : Option Bytes} {url path : Bytes}
    {es tail : List Event} (hpath : Confined cwd path ↔ Confined cwd (docPath url))
    (hes : ∀ e ∈ es, Inner path e) (htail : ∀ e ∈ tail, e = .close) :
    (∀ e ∈ opening w ++ .cut url q :: .stat (docPath url) :: es ++ tail,
        ∀ p, pathOf e = some p → Confined cwd p) ↔ Inside cwd url := by
  rw [← confined_htdocs_iff, ← confined_docPath_iff]
  refine ⟨fun h => h (.stat (docPath url)) (by simp) _ rfl, fun h e he p hp => ?_⟩
  simp only [List.mem_append, List.mem_cons] at he
  rcases he with (he | rfl | rfl | he) | he
  · rw [pathOf_opening w e he] at hp
    cases hp
  · cases hp
  · obtain rfl := Option.some.inj hp
    exact h
  · rw [inner_pathOf (hes e he) hp, hpath]
    exact h
  · rw [htail e he] at hp
    cases hp

/-- **The document root.** Every path a request hands to `stat`, `open` or `execl` is confined
to `htdocs` exactly when its method is refused or its url is inside. -/
theorem confined_iff (host : Host) (fuel : ℕ) (w : World) (cwd : List Bytes) :
    (∀ e ∈ (acceptRequest host fuel w).log, ∀ p, pathOf e = some p → Confined cwd p) ↔
      refused (methodOf w) = true ∨ Inside cwd (targetOf w).url := by
  cases acceptRequest_course host fuel w with
  | refused hm hval hlog =>
    rw [hlog]
    refine ⟨fun _ => .inl hm, fun _ e he p hp => ?_⟩
    rw [pathOf_opening w e he] at hp
    cases hp
  | missing hm hst es hes hlog =>
    rw [hlog, ← List.append_nil (_ ++ _), confined_answer_iff Iff.rfl hes (by simp)]
    simp [hm]
  | served hm st hst es hes hlog =>
    rw [hlog, confined_answer_iff (confined_servePath_iff cwd st _) hes]
    · simp [hm]
    · intro e he
      split_ifs at he
      · exact List.mem_singleton.mp he
      · simp at he

/-- A client that has sent one line and a blank one. -/
def client (line : Bytes) : World where
  avail := line ++ [cr, lf, cr, lf]
  later := []
  sched := []
  takes := []
  pos := 0

/-- Every path is a file, and nothing can be run. -/
def flatHost : Host where
  stat := fun _ => some ⟨false, false, false, false, 1⟩
  openFile := fun _ => some [0]
  pipeInput := false
  pipeOutput := false
  fork := false
  cgi := fun _ _ => []

/-- `GET /a/../b` goes up no further than it went down. -/
theorem confined_iff_upDown :
    ∀ e ∈ (acceptRequest flatHost 1
        (client (lit ['G', 'E', 'T', ' ', '/', 'a', '/', '.', '.', '/', 'b']))).log,
      ∀ p, pathOf e = some p → Confined [lit ['w']] p :=
  (confined_iff flatHost 1 _ [lit ['w']]).mpr (by decide +kernel)

/-- `GET /../b` makes `stat` and `open` look beside `htdocs`. -/
theorem escapes_dotDot :
    (acceptRequest flatHost 1
        (client (lit ['G', 'E', 'T', ' ', '/', '.', '.', '/', 'b']))).log.filterMap pathOf =
      [htdocs ++ lit ['/', '.', '.', '/', 'b'], htdocs ++ lit ['/', '.', '.', '/', 'b']] ∧
    denotes [lit ['w']] (htdocs ++ lit ['/', '.', '.', '/', 'b']) = [lit ['w'], lit ['b']] ∧
    ¬ Confined [lit ['w']] (htdocs ++ lit ['/', '.', '.', '/', 'b']) := by
  decide +kernel

end WeatherQuery.HttpPath
