import ArchetypeProxy.Library.Text
import ArchetypeProxy.Library.UrlPath

/-!
# Parsing http URLs by the URL standard

The parser trims controls and blanks at both ends, removes tabs and newlines,
reads the scheme, skips any run of slashes and backslashes, takes the authority
up to the next delimiter, and resolves the path up to query or fragment. The
host parser and the set of encoded characters are inputs. The lemmas follow a
text that is put before a path: its authority is its own unless it is a run of
slashes.
-/

set_option autoImplicit false

namespace ArchetypeProxy.UrlStandard
open ArchetypeProxy.Text ArchetypeProxy.UrlPath

/-- A host parser refuses the empty host and knows some name. -/
structure Rules (E : Type) extends EscapeSet where
  endpoint : List Char → Option E
  noHost : endpoint [] = none
  someHost : (endpoint ['a']).isSome = true

structure Url (E : Type) where
  endpoint : E
  path : List Char
  deriving DecidableEq

def controlOrSpace (c : Char) : Bool := c.toNat ≤ 0x20

def tabOrNewline (c : Char) : Bool := c == '\t' || c == '\n' || c == '\r'

def strip (s : List Char) : List Char :=
  ((s.dropWhile controlOrSpace).rdropWhile controlOrSpace).filter (fun c => !tabOrNewline c)

def afterScheme (s : List Char) : Option (List Char) :=
  let scheme := (s.takeWhile (· != ':')).map Char.toLower
  if scheme = ['h','t','t','p'] ∨ scheme = ['h','t','t','p','s'] then
    (s.dropWhile (· != ':')).tail?
  else none

def inAuthority (c : Char) : Bool := !(isSlash c || c == '?' || c == '#')

def inPath (c : Char) : Bool := !(c == '?' || c == '#')

def authority (s : List Char) : List Char := (s.dropWhile isSlash).takeWhile inAuthority

def hostPort (a : List Char) : List Char := a.rtakeWhile (· != '@')

def pathText (s : List Char) : List Char :=
  ((s.dropWhile isSlash).dropWhile inAuthority).takeWhile inPath

def Rules.parse {E : Type} (rules : Rules E) (s : List Char) : Option (Url E) :=
  (afterScheme (strip s)).bind (fun rest =>
    (rules.endpoint (hostPort (authority rest))).map (fun e =>
      ⟨e,normalise rules.toEscapeSet (pathText rest)⟩))

def pathChar (c : Char) : Bool := decide (0x20 < c.toNat) && inPath c

def QueryText (t : List Char) : Prop := t = [] ∨ t.head? = some '?'

def lead (a : List Char) : List Char :=
  (a.dropWhile controlOrSpace).filter (fun c => !tabOrNewline c)

def trail (y : List Char) : List Char :=
  (y.rdropWhile controlOrSpace).filter (fun c => !tabOrNewline c)

theorem takeWhile_append_slash (p : Char → Bool) (hp : p '/' = false) (a y : List Char) :
    (a ++ '/'::y).takeWhile p = a.takeWhile p := by
  rw [List.takeWhile_append]
  split
  · rename_i hl
    rw [List.takeWhile_cons_of_neg (by simp [hp]), List.append_nil]
    exact ((List.takeWhile_prefix p).eq_of_length hl).symm
  · rfl

theorem strip_append (a y : List Char) : strip (a ++ '/'::y) = lead a ++ '/'::trail y := by
  rw [strip, dropWhile_keep _ _ _ _ (by decide), rdropWhile_keep _ _ _ _ (by decide),
    List.filter_append, List.filter_cons_of_pos (by decide), lead, trail]

theorem pathChar_kept (c : Char) (h : pathChar c = true) :
    controlOrSpace c = false ∧ tabOrNewline c = false ∧ inPath c = true := by
  simp only [pathChar, Bool.and_eq_true, decide_eq_true_eq] at h
  refine ⟨by simp [controlOrSpace, h.1],?_,h.2⟩
  by_contra ht
  simp only [tabOrNewline, Bool.not_eq_false, Bool.or_eq_true, beq_iff_eq] at ht
  rcases ht with (rfl | rfl) | rfl <;> exact absurd h.1 (by decide)

theorem filter_path (p : List Char) (hp : ∀ c ∈ p, pathChar c = true) :
    p.filter (fun c => !tabOrNewline c) = p := by
  rw [List.filter_eq_self]
  intro c hc
  simp [(pathChar_kept c (hp c hc)).2.1]

theorem trail_path (p t : List Char) (hp : ∀ c ∈ p, pathChar c = true) (ht : QueryText t) :
    trail (p ++ t) = p ++ trail t ∧ QueryText (trail t) := by
  rcases ht with rfl | ht
  · have hself : p.rdropWhile controlOrSpace = p := by
      rw [List.rdropWhile_eq_self_iff]
      intro hne hlast
      rw [(pathChar_kept _ (hp _ (List.getLast_mem hne))).1] at hlast
      cases hlast
    have hnil : trail [] = [] := rfl
    rw [hnil, List.append_nil, trail, hself, filter_path p hp]
    exact ⟨rfl,Or.inl rfl⟩
  · obtain ⟨q,rfl⟩ := List.head?_eq_some_iff.mp ht
    have hq : trail ('?'::q) = '?'::trail q := by
      rw [trail, ← List.nil_append ('?'::q), rdropWhile_keep _ _ _ _ (by decide), List.nil_append,
        List.filter_cons_of_pos (by decide), trail]
    refine ⟨?_,Or.inr (by rw [hq]; rfl)⟩
    rw [hq, trail, rdropWhile_keep _ _ _ _ (by decide), List.filter_append, filter_path p hp,
      List.filter_cons_of_pos (by decide), trail]

theorem afterScheme_append (a y : List Char) :
    afterScheme (a++ '/'::y) = (afterScheme a).map (· ++ '/'::y) := by
  by_cases hc : ':' ∈ a
  · have hne : a.dropWhile (· != ':') ≠ [] := by
      intro hd
      simpa using List.dropWhile_eq_nil_iff.mp hd ':' hc
    have htake : (a++ '/'::y).takeWhile (· != ':') = a.takeWhile (· != ':') := by
      rw [List.takeWhile_append, if_neg]
      intro hl
      have hall := List.takeWhile_eq_self_iff.mp ((List.takeWhile_prefix _).eq_of_length hl)
      simpa using hall ':' hc
    have hdrop : (a++ '/'::y).dropWhile (· != ':') = a.dropWhile (· != ':') ++ '/'::y := by
      rw [List.dropWhile_append, if_neg (by simpa using hne)]
    obtain ⟨c,r,hr⟩ := List.exists_cons_of_ne_nil hne
    simp only [afterScheme, htake, hdrop, hr, List.cons_append, List.tail?_cons]
    split <;> rfl
  · have hall : ∀ c ∈ a, (c != ':') = true := by
      intro c hca
      simp only [bne_iff_ne, ne_eq]
      rintro rfl
      exact hc hca
    have hslash : '/' ∈ ((a++ '/'::y).takeWhile (· != ':')).map Char.toLower := by
      rw [List.takeWhile_append_of_pos hall, List.takeWhile_cons_of_pos (by decide)]
      simp
    have hnone : afterScheme a = none := by
      rw [afterScheme, List.dropWhile_eq_nil_iff.mpr hall]
      simp
    rw [hnone, afterScheme, if_neg]
    · rfl
    · rintro (he | he) <;> rw [he] at hslash <;> exact absurd hslash (by decide)

/-- Nothing but slashes after the scheme: the next path names the host. -/
def hostless (rest : List Char) : Bool := rest.all isSlash

def remainder (rest : List Char) : List Char := (rest.dropWhile isSlash).dropWhile inAuthority

theorem dropWhile_isSlash_append (rest y : List Char) (h : hostless rest = false) :
    (rest ++ y).dropWhile isSlash = rest.dropWhile isSlash ++ y := by
  rw [List.dropWhile_append, if_neg]
  intro he
  have hall := List.dropWhile_eq_nil_iff.mp (List.isEmpty_iff.mp he)
  rw [hostless, List.all_eq_true.mpr hall] at h
  cases h

theorem authority_append (rest y : List Char) (h : hostless rest = false) :
    authority (rest ++ '/'::y) = authority rest := by
  rw [authority, dropWhile_isSlash_append rest _ h, takeWhile_append_slash _ (by decide)]
  rfl

theorem takeWhile_inPath (p t : List Char) (hp : ∀ c ∈ p, pathChar c = true) (ht : QueryText t) :
    ('/'::(p ++ t)).takeWhile inPath = '/'::p := by
  have hin : ∀ c ∈ '/'::p, inPath c = true := by
    intro c hc
    rcases List.mem_cons.mp hc with rfl | hc
    · decide
    · exact (pathChar_kept c (hp c hc)).2.2
  have htake : t.takeWhile inPath = [] := by
    rcases ht with rfl | ht
    · rfl
    · obtain ⟨q,rfl⟩ := List.head?_eq_some_iff.mp ht
      rfl
  rw [← List.cons_append, List.takeWhile_append_of_pos hin, htake, List.append_nil]

/-- A path follows the remainder of the text, unless a query or a fragment
began in it. -/
theorem pathText_append (rest p t : List Char) (h : hostless rest = false)
    (hp : ∀ c ∈ p, pathChar c = true) (ht : QueryText t) :
    pathText (rest ++ '/'::(p ++ t)) =
      if (remainder rest).all inPath then remainder rest ++ '/'::p
      else (remainder rest).takeWhile inPath := by
  rw [pathText, dropWhile_isSlash_append rest _ h, dropWhile_keep _ _ _ _ (by decide)]
  change (remainder rest ++ '/'::(p ++ t)).takeWhile inPath = _
  split
  · rename_i hall
    rw [List.takeWhile_append_of_pos (List.all_eq_true.mp hall), takeWhile_inPath p t hp ht]
  · rename_i hall
    rw [List.takeWhile_append, if_neg]
    intro hl
    exact hall (List.all_eq_true.mpr
      (List.takeWhile_eq_self_iff.mp ((List.takeWhile_prefix _).eq_of_length hl)))

variable {E : Type} (rules : Rules E)

theorem parse_append (a y : List Char) :
    rules.parse (a ++ '/'::y) = (afterScheme (lead a)).bind (fun rest =>
      (rules.endpoint (hostPort (authority (rest ++ '/'::trail y)))).map (fun e =>
        ⟨e,normalise rules.toEscapeSet (pathText (rest ++ '/'::trail y))⟩)) := by
  rw [Rules.parse, strip_append, afterScheme_append, Option.bind_map]
  rfl

theorem parse_no_scheme (a y : List Char) (ha : afterScheme (lead a) = none) :
    rules.parse (a ++ '/'::y) = none := by
  rw [parse_append, ha, Option.bind_none]

theorem endpoint_hosted (a y rest : List Char) (ha : afterScheme (lead a) = some rest)
    (hh : hostless rest = false) :
    (rules.parse (a ++ '/'::y)).map Url.endpoint =
      rules.endpoint (hostPort (authority rest)) := by
  rw [parse_append, ha, Option.bind_some, authority_append rest _ hh, Option.map_map]
  exact Option.map_id'

theorem parse_hosted (a p t rest : List Char) (hp : ∀ c ∈ p, pathChar c = true)
    (ht : QueryText t) (ha : afterScheme (lead a) = some rest) (hh : hostless rest = false) :
    rules.parse (a ++ '/'::(p ++ t)) =
      (rules.endpoint (hostPort (authority rest))).map (fun e => ⟨e,
        normalise rules.toEscapeSet (if (remainder rest).all inPath then remainder rest ++ '/'::p
          else (remainder rest).takeWhile inPath)⟩) := by
  obtain ⟨htrail,hquery⟩ := trail_path p t hp ht
  rw [parse_append, ha, Option.bind_some, authority_append rest _ hh, htrail,
    pathText_append rest p _ hh hp hquery]

theorem dropWhile_hostless (rest y : List Char) (h : hostless rest = true) :
    (rest ++ '/'::y).dropWhile isSlash = y.dropWhile isSlash := by
  rw [List.dropWhile_append_of_pos (List.all_eq_true.mp h), List.dropWhile_cons_of_pos (by decide)]

theorem parse_hostless_root (a rest : List Char) (ha : afterScheme (lead a) = some rest)
    (hh : hostless rest = true) : rules.parse (a ++ ['/']) = none := by
  have hauth : authority (rest ++ '/'::trail []) = [] := by
    rw [authority, dropWhile_hostless rest _ hh]
    rfl
  rw [parse_append, ha, Option.bind_some, hauth, show hostPort [] = [] from rfl, rules.noHost]
  rfl

/-- Without a host, the first segment of the path becomes the host. -/
theorem parse_hostless_name (a rest : List Char) (ha : afterScheme (lead a) = some rest)
    (hh : hostless rest = true) : rules.parse (a ++ ['/','a']) ≠ none := by
  have hauth : authority (rest ++ '/'::trail ['a']) = ['a'] := by
    rw [authority, dropWhile_hostless rest _ hh]
    rfl
  obtain ⟨e,he⟩ := Option.isSome_iff_exists.mp rules.someHost
  rw [parse_append, ha, Option.bind_some, hauth, show hostPort ['a'] = ['a'] from by decide, he]
  simp

end ArchetypeProxy.UrlStandard
