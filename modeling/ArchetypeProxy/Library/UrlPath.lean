import Mathlib.Data.List.Basic

/-!
# Path segments of the URL standard

The path of an `http` URL is split at slashes and backslashes, each segment
is percent-encoded, and dot segments are resolved: one dot is dropped and two
dots remove the segment before them, also when the dots are spelled `%2e`. A
resolved path holds no dot segment, no backslash and no character to encode.
A path that holds none of them is its own resolution.
-/

set_option autoImplicit false

namespace ArchetypeProxy.UrlPath

abbrev Segment := List Char

def isSlash (c : Char) : Bool := c == '/' || c == '\\'

def hexUpper (n : ℕ) : Char := (Nat.digitChar n).toUpper

def percentEncode (c : Char) : List Char :=
  (String.utf8EncodeChar c).flatMap
    (fun b => ['%',hexUpper (b.toNat/16),hexUpper (b.toNat%16)])

/-- The characters percent-encoded in a path. A percent sign and the
alphanumeric characters are not among them. -/
structure EscapeSet where
  escapes : Char → Bool
  keeps : ∀ c, (c.isAlphanum || c == '%') = true → escapes c = false

variable (x : EscapeSet)

def escapeSegment (s : Segment) : Segment :=
  s.flatMap (fun c => if x.escapes c then percentEncode c else [c])

def isDot (s : Segment) : Bool :=
  s.map Char.toLower == ['.'] || s.map Char.toLower == ['%','2','e']

def isDotDot (s : Segment) : Bool :=
  let l := s.map Char.toLower
  l == ['.','.'] || l == ['.','%','2','e'] || l == ['%','2','e','.'] ||
    l == ['%','2','e','%','2','e']

def segments (t : List Char) : List Segment := t.tail.splitOnP isSlash

def pathOf (ss : List Segment) : List Char := ss.flatMap (List.cons '/')

def walk (path : List Segment) (s : Segment) : List Segment :=
  if isDotDot s then path.dropLast else if isDot s then path else path++[s]

/-- All segments; dots in the last one leave an empty segment. -/
def resolve (path : List Segment) : List Segment → List Segment
  | [] => path
  | [s] => if isDotDot s || isDot s then walk path s ++ [[]] else path++[s]
  | s::t::rest => resolve (walk path s) (t::rest)

def normalise (t : List Char) : List Char :=
  pathOf (resolve [] ((segments t).map (escapeSegment x)))

def cleanSegment (s : Segment) : Bool :=
  !isDotDot s && !isDot s && s.all (fun c => !x.escapes c && !isSlash c)

def Clean (t : List Char) : Prop := '\\' ∉ t ∧ ∀ s ∈ segments t, cleanSegment x s = true

instance (t : List Char) : Decidable (Clean x t) := inferInstanceAs (Decidable (_ ∧ _))

theorem pathOf_append (ss ts : List Segment) : pathOf (ss++ts) = pathOf ss ++ pathOf ts :=
  List.flatMap_append

theorem clean_empty : cleanSegment x [] = true := rfl

theorem hexUpper_alphanum (n : ℕ) (h : n < 16) : (hexUpper n).isAlphanum = true := by
  have hd : ∀ m : Fin 16, (hexUpper m.val).isAlphanum = true := by decide
  exact hd ⟨n,h⟩

theorem alphanum_not_slash (c : Char) (h : (c.isAlphanum || c == '%') = true) :
    isSlash c = false := by
  by_contra hs
  simp only [isSlash, Bool.not_eq_false, Bool.or_eq_true, beq_iff_eq] at hs
  rcases hs with rfl | rfl <;> exact absurd h (by decide)

theorem percentEncode_kept (c d : Char) (h : d ∈ percentEncode c) :
    (d.isAlphanum || d == '%') = true := by
  obtain ⟨b,_,hd⟩ := List.mem_flatMap.mp h
  have hb := b.toNat_lt
  simp only [List.mem_cons, List.not_mem_nil, or_false] at hd
  rcases hd with rfl | rfl | rfl
  · decide
  · rw [hexUpper_alphanum _ (by omega)]
    rfl
  · rw [hexUpper_alphanum _ (by omega)]
    rfl

theorem escape_clean (s : Segment) (h : cleanSegment x s = true) : escapeSegment x s = s := by
  have hall : ∀ c ∈ s, x.escapes c = false := by
    intro c hc
    simp only [cleanSegment, Bool.and_eq_true, List.all_eq_true] at h
    simpa using (h.2 c hc).1
  clear h
  unfold escapeSegment
  induction s with
  | nil => rfl
  | cons c s ih =>
    rw [List.flatMap_cons, hall c (by simp), ih (fun d hd => hall d (by simp [hd]))]
    rfl

theorem map_escape_clean (ss : List Segment) (h : ∀ s ∈ ss, cleanSegment x s = true) :
    ss.map (escapeSegment x) = ss := by
  rw [List.map_congr_left fun s hs => escape_clean x s (h s hs), List.map_id']

theorem splitOnP_no_slash (t : List Char) (s : Segment) (hs : s ∈ t.splitOnP isSlash) :
    ∀ c ∈ s, isSlash c = false := by
  induction t generalizing s with
  | nil =>
    rw [List.splitOnP_nil, List.mem_singleton] at hs
    simp [hs]
  | cons d t ih =>
    rw [List.splitOnP_cons_eq_if_modifyHead] at hs
    by_cases hd : isSlash d
    · rw [if_pos hd] at hs
      rcases List.mem_cons.mp hs with rfl | hs
      · simp
      · exact ih s hs
    · rw [if_neg hd] at hs
      obtain ⟨a,as,ha⟩ := List.exists_cons_of_ne_nil (List.splitOnP_ne_nil isSlash t)
      rw [ha, List.modifyHead_cons] at hs
      rcases List.mem_cons.mp hs with rfl | hs
      · intro c hc
        rcases List.mem_cons.mp hc with rfl | hc
        · simpa using hd
        · exact ih a (by simp [ha]) c hc
      · exact ih s (by simp [ha, hs])

theorem resolve_append (path ss ts : List Segment) (hts : ts ≠ []) :
    resolve path (ss++ts) = resolve (ss.foldl walk path) ts := by
  induction ss generalizing path with
  | nil => rfl
  | cons s ss ih =>
    obtain ⟨u,us,hu⟩ := List.exists_cons_of_ne_nil
      (List.append_ne_nil_of_right_ne_nil ss hts)
    rw [List.cons_append, hu, resolve, ← hu, ih]
    rfl

theorem resolve_clean (path ss : List Segment) (h : ∀ s ∈ ss, cleanSegment x s = true) :
    resolve path ss = path++ss := by
  have hdots : ∀ s ∈ ss, isDotDot s = false ∧ isDot s = false := by
    intro s hs
    have hc := h s hs
    simp only [cleanSegment, Bool.and_eq_true] at hc
    simpa using hc.1
  induction ss generalizing path with
  | nil => simp [resolve]
  | cons s ss ih =>
    obtain ⟨h2,h1⟩ := hdots s (by simp)
    cases ss with
    | nil => simp [resolve, h1, h2]
    | cons t rest =>
      rw [resolve, ih _ (fun u hu => h u (by simp [hu])) (fun u hu => hdots u (by simp [hu])), walk]
      simp [h1, h2]

def Encoded (s : Segment) : Prop := ∀ c ∈ s, x.escapes c = false ∧ isSlash c = false

theorem escape_encoded (s : Segment) (hs : ∀ c ∈ s, isSlash c = false) :
    Encoded x (escapeSegment x s) := by
  intro d h
  obtain ⟨c,hc,hd⟩ := List.mem_flatMap.mp h
  cases he : x.escapes c with
  | true =>
    rw [he, if_pos rfl] at hd
    have hk := percentEncode_kept c d hd
    exact ⟨x.keeps d hk,alphanum_not_slash d hk⟩
  | false =>
    simp only [he, Bool.false_eq_true, if_false, List.mem_singleton] at hd
    rw [hd]
    exact ⟨he,hs c hc⟩

theorem clean_of_encoded (s : Segment) (hs : Encoded x s) (h2 : isDotDot s = false)
    (h1 : isDot s = false) : cleanSegment x s = true := by
  simp only [cleanSegment, h1, h2, Bool.not_false, Bool.true_and, List.all_eq_true]
  intro c hc
  simp [hs c hc]

theorem clean_concat (path : List Segment) (s : Segment)
    (hp : ∀ u ∈ path, cleanSegment x u = true) (hs : cleanSegment x s = true) :
    ∀ u ∈ path++[s], cleanSegment x u = true := by
  intro u hu
  rcases List.mem_append.mp hu with hu | hu
  · exact hp u hu
  · rw [List.mem_singleton.mp hu]
    exact hs

theorem walk_output (path : List Segment) (s : Segment)
    (hp : ∀ u ∈ path, cleanSegment x u = true) (hs : Encoded x s) :
    ∀ u ∈ walk path s, cleanSegment x u = true := by
  unfold walk
  split
  · exact fun u hu => hp u (List.dropLast_subset path hu)
  · split
    · exact hp
    · rename_i h2 h1
      exact clean_concat x path s hp
        (clean_of_encoded x s hs (by simpa using h2) (by simpa using h1))

/-- Resolution leaves clean segments, provided the segments are encoded. -/
theorem resolve_output (path ss : List Segment) (hp : ∀ s ∈ path, cleanSegment x s = true)
    (hs : ∀ s ∈ ss, Encoded x s) : ∀ s ∈ resolve path ss, cleanSegment x s = true := by
  induction ss generalizing path with
  | nil => exact hp
  | cons s ss ih =>
    have hwalk := walk_output x path s hp (hs s (by simp))
    cases ss with
    | nil =>
      unfold resolve
      split
      · exact clean_concat x _ [] hwalk (clean_empty x)
      · rename_i hd
        simp only [Bool.or_eq_true, not_or, Bool.not_eq_true] at hd
        exact clean_concat x path s hp (clean_of_encoded x s (hs s (by simp)) hd.1 hd.2)
    | cons t rest => exact ih _ hwalk (fun u hu => hs u (by simp [hu]))

theorem resolve_ne_nil (path ss : List Segment) (h : ss ≠ []) : resolve path ss ≠ [] := by
  induction ss generalizing path with
  | nil => exact absurd rfl h
  | cons s ss ih =>
    cases ss with
    | nil =>
      unfold resolve
      split <;> simp
    | cons t rest => exact ih _ (by simp)

theorem segments_pathOf (ss : List Segment) (hne : ss ≠ [])
    (h : ∀ s ∈ ss, ∀ c ∈ s, isSlash c = false) : segments (pathOf ss) = ss := by
  induction ss with
  | nil => exact absurd rfl hne
  | cons s ss ih =>
    have hs := h s (by simp)
    cases ss with
    | nil =>
      have ht : (pathOf [s]).tail = s := by simp [pathOf]
      rw [segments, ht, List.splitOnP_eq_singleton hs]
    | cons t rest =>
      have ht : (pathOf (s::t::rest)).tail = s++ '/'::(pathOf (t::rest)).tail := by
        simp [pathOf]
      rw [segments, ht, List.splitOnP_append_cons_of_forall_mem hs _ (by decide)]
      exact congrArg (List.cons s) (ih (by simp) fun u hu => h u (by simp [hu]))

theorem pathOf_segments (t : List Char) (h : '\\' ∉ t) : pathOf (segments ('/'::t)) = '/'::t := by
  rw [segments, List.tail_cons]
  induction t with
  | nil => rfl
  | cons c t ih =>
    have hb : c ≠ '\\' := fun hc => h (by simp [hc])
    have ih := ih fun hm => h (by simp [hm])
    rw [List.splitOnP_cons_eq_if_modifyHead]
    by_cases hc : c = '/'
    · rw [if_pos (by simp [isSlash, hc]), hc]
      exact congrArg (List.cons '/') ih
    · rw [if_neg (by simp [isSlash, hc, hb])]
      obtain ⟨a,as,ha⟩ := List.exists_cons_of_ne_nil (List.splitOnP_ne_nil isSlash t)
      rw [ha] at ih ⊢
      have hat : a++pathOf as = t := by simpa [pathOf] using ih
      simp [pathOf, ← hat]

def baseSegments (d : List Char) : List Segment :=
  match d with
  | [] => []
  | _::r => ((r.splitOnP isSlash).map (escapeSegment x)).foldl walk []

theorem normalise_append (d t : List Char) :
    normalise x (d++ '/'::t) =
      pathOf (resolve (baseSegments x d) ((segments ('/'::t)).map (escapeSegment x))) := by
  cases d with
  | nil => rfl
  | cons c r =>
    have hne : (segments ('/'::t)).map (escapeSegment x) ≠ [] :=
      List.map_eq_nil_iff.not.mpr (List.splitOnP_ne_nil isSlash t)
    have hsplit : segments (c::r++ '/'::t) = r.splitOnP isSlash ++ segments ('/'::t) :=
      List.splitOnP_append_cons r t (by decide)
    rw [normalise, hsplit, List.map_append, resolve_append _ _ _ hne]
    rfl

theorem normalise_append_clean (d t : List Char) (h : Clean x ('/'::t)) :
    normalise x (d++ '/'::t) = pathOf (baseSegments x d) ++ '/'::t := by
  rw [normalise_append, map_escape_clean x _ h.2, resolve_clean x _ _ h.2, pathOf_append,
    pathOf_segments t fun hm => h.1 (by simp [hm])]

theorem normalise_of_clean (t : List Char) (h : Clean x ('/'::t)) :
    normalise x ('/'::t) = '/'::t :=
  normalise_append_clean x [] t h

theorem clean_normalise (t : List Char) : Clean x (normalise x t) := by
  have hencoded : ∀ s ∈ (segments t).map (escapeSegment x), Encoded x s := by
    intro s hs
    obtain ⟨u,hu,rfl⟩ := List.mem_map.mp hs
    exact escape_encoded x u (splitOnP_no_slash t.tail u hu)
  have hout := resolve_output x [] _ (by simp) hencoded
  have hslash : ∀ s ∈ resolve [] ((segments t).map (escapeSegment x)), ∀ c ∈ s,
      isSlash c = false := by
    intro s hs c hc
    have hcl := hout s hs
    simp only [cleanSegment, Bool.and_eq_true, List.all_eq_true] at hcl
    simpa using (hcl.2 c hc).2
  have hne : (segments t).map (escapeSegment x) ≠ [] :=
    List.map_eq_nil_iff.not.mpr (List.splitOnP_ne_nil isSlash t.tail)
  refine ⟨?_,?_⟩
  · intro hb
    obtain ⟨s,hs,hc⟩ := List.mem_flatMap.mp hb
    rcases List.mem_cons.mp hc with hc | hc
    · exact absurd hc (by decide)
    · exact absurd (hslash s hs _ hc) (by decide)
  · rw [normalise, segments_pathOf _ (resolve_ne_nil [] _ hne) hslash]
    exact hout

theorem clean_of_append (t rest : List Char) (ht : t ≠ [])
    (hr : rest = [] ∨ rest.head? = some '/') (h : Clean x (t++rest)) : Clean x t := by
  refine ⟨fun hm => h.1 (by simp [hm]),fun s hs => ?_⟩
  obtain ⟨c,t,rfl⟩ := List.exists_cons_of_ne_nil ht
  rcases hr with rfl | hr
  · exact h.2 s (by simpa using hs)
  · obtain ⟨u,rfl⟩ := List.head?_eq_some_iff.mp hr
    apply h.2 s
    rw [segments, List.cons_append, List.tail_cons, List.splitOnP_append_cons t u (by decide)]
    exact List.mem_append_left _ hs

theorem splitOnP_slashes (t : List Char) (h : ∀ c ∈ t, c = '/') (s : Segment)
    (hs : s ∈ t.splitOnP isSlash) : s = [] := by
  induction t with
  | nil => simpa using hs
  | cons c t ih =>
    rw [List.splitOnP_cons_eq_if_modifyHead, if_pos (by simp [isSlash, h c (by simp)])] at hs
    rcases List.mem_cons.mp hs with hs | hs
    · exact hs
    · exact ih (fun d hd => h d (by simp [hd])) hs

theorem clean_slashes (t : List Char) (h : ∀ c ∈ t, c = '/') : Clean x t := by
  refine ⟨fun hm => absurd (h _ hm) (by decide),fun s hs => ?_⟩
  rw [splitOnP_slashes t.tail (fun c hc => h c (List.mem_of_mem_tail hc)) s hs]
  exact clean_empty x

theorem clean_append_slashes (t u : List Char) (ht : t ≠ []) (h : Clean x t)
    (hu : ∀ c ∈ u, c = '/') : Clean x (t++u) := by
  obtain ⟨c,t,rfl⟩ := List.exists_cons_of_ne_nil ht
  cases u with
  | nil => simpa using h
  | cons d u =>
    obtain rfl := hu d (by simp)
    refine ⟨?_,fun s hs => ?_⟩
    · intro hm
      rcases List.mem_append.mp hm with hm | hm
      · exact h.1 hm
      · exact absurd (hu _ hm) (by decide)
    · rw [segments, List.cons_append, List.tail_cons,
        List.splitOnP_append_cons t u (by decide)] at hs
      rcases List.mem_append.mp hs with hs | hs
      · exact h.2 s hs
      · rw [splitOnP_slashes u (fun e he => hu e (by simp [he])) s hs]
        exact clean_empty x

end ArchetypeProxy.UrlPath
