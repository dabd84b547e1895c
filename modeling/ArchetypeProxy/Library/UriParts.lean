import Mathlib.Data.List.TakeWhile

/-!
# The parts of a URI

A URI with an authority is cut at the first delimiter of each part: the
authority ends at a slash, the path at a question mark, the query at a number
sign. Cutting and writing the parts one after another are inverse to each other
on the parts that hold no delimiter of their own.
-/

set_option autoImplicit false

namespace ArchetypeProxy.UriParts

def cut (p : Char → Bool) (s : List Char) : List Char × List Char :=
  (s.takeWhile p,s.dropWhile p)

theorem cut_eq_iff (p : Char → Bool) (s a b : List Char) :
    cut p s = (a,b) ↔
      s = a++b ∧ (∀ c ∈ a, p c = true) ∧ ∀ c, b.head? = some c → p c = false := by
  constructor
  · intro h
    obtain ⟨rfl,rfl⟩ := Prod.mk.inj h
    refine ⟨List.takeWhile_append_dropWhile.symm,fun c hc => List.mem_takeWhile_imp hc,?_⟩
    intro c hc
    have hhead := List.head?_dropWhile_not p s
    rw [hc] at hhead
    simpa using hhead
  · rintro ⟨rfl,ha,hb⟩
    have hrest : cut p b = ([],b) := by
      cases b with
      | nil => rfl
      | cons c b => simp [cut, hb c rfl]
    obtain ⟨htake,hdrop⟩ := Prod.mk.inj hrest
    rw [cut, List.takeWhile_append_of_pos ha, List.dropWhile_append_of_pos ha, htake, hdrop,
      List.append_nil]

def inScheme (c : Char) : Bool := c != ':'
def inAuthority (c : Char) : Bool := !(c == '/' || c == '?' || c == '#')
def inPath (c : Char) : Bool := !(c == '?' || c == '#')
def inQuery (c : Char) : Bool := c != '#'

def after (d : Char) : List Char → Option (List Char)
  | [] => none
  | c::cs => if c = d then some cs else none

def delimited (d : Char) : Option (List Char) → List Char
  | none => []
  | some t => d::t

theorem after_delimited (d : Char) (t : Option (List Char)) : after d (delimited d t) = t := by
  cases t with
  | none => rfl
  | some t => simp [delimited, after]

theorem delimited_after (d : Char) (s : List Char) (h : ∀ c, s.head? = some c → c = d) :
    delimited d (after d s) = s := by
  cases s with
  | nil => rfl
  | cons c s => simp [after, h c rfl, delimited]

structure Parts where
  scheme : List Char
  authority : List Char
  path : List Char
  query : Option (List Char)
  fragment : Option (List Char)
  deriving DecidableEq

namespace Parts

def text (p : Parts) : List Char :=
  p.scheme++ ':' :: '/' :: '/' ::
    (p.authority++(p.path++(delimited '?' p.query++delimited '#' p.fragment)))

/-- No part holds a delimiter that would end it, and the path begins with a
slash if there is one. -/
structure WellFormed (p : Parts) : Prop where
  scheme : ∀ c ∈ p.scheme, inScheme c = true
  authority : ∀ c ∈ p.authority, inAuthority c = true
  slash : ∀ c, p.path.head? = some c → c = '/'
  path : ∀ c ∈ p.path, inPath c = true
  query : ∀ q, p.query = some q → ∀ c ∈ q, inQuery c = true

end Parts

def afterSlashes : List Char → Option (List Char)
  | ':' :: '/' :: '/' :: rest => some rest
  | _ => none

theorem afterSlashes_eq_some_iff (s rest : List Char) :
    afterSlashes s = some rest ↔ s = ':' :: '/' :: '/' :: rest := by
  constructor
  · intro h
    unfold afterSlashes at h
    split at h
    · rw [Option.some.inj h]
    · cases h
  · rintro rfl
    rfl

def splitRest (scheme rest : List Char) : Parts :=
  let (authority,tail) := cut inAuthority rest
  let (path,tail) := cut inPath tail
  let (query,fragment) := cut inQuery tail
  ⟨scheme,authority,path,after '?' query,after '#' fragment⟩

def splitParts (s : List Char) : Option Parts :=
  let (scheme,rest) := cut inScheme s
  (afterSlashes rest).map (splitRest scheme)

theorem head?_append_or (a b : List Char) (c : Char) (h : (a++b).head? = some c) :
    a.head? = some c ∨ a = [] ∧ b.head? = some c := by
  cases a with
  | nil => exact Or.inr ⟨rfl,h⟩
  | cons x a => exact Or.inl h

theorem head?_delimited (d c : Char) (t : Option (List Char)) (h : (delimited d t).head? = some c) :
    c = d := by
  cases t with
  | none => cases h
  | some t => exact (Option.some.inj h).symm

theorem head?_tail (q f : Option (List Char)) (c : Char)
    (h : (delimited '?' q++delimited '#' f).head? = some c) : c = '?' ∨ c = '#' := by
  rcases head?_append_or _ _ c h with hq|⟨-,hf⟩
  · exact Or.inl (head?_delimited '?' c q hq)
  · exact Or.inr (head?_delimited '#' c f hf)

theorem splitParts_text (p : Parts) (h : p.WellFormed) : splitParts p.text = some p := by
  have hscheme : cut inScheme p.text =
      (p.scheme,':' :: '/' :: '/' ::
        (p.authority++(p.path++(delimited '?' p.query++delimited '#' p.fragment)))) := by
    refine (cut_eq_iff _ _ _ _).mpr ⟨rfl,h.scheme,fun c hc => ?_⟩
    rw [← Option.some.inj hc]
    decide
  have hauthority : cut inAuthority
        (p.authority++(p.path++(delimited '?' p.query++delimited '#' p.fragment))) =
      (p.authority,p.path++(delimited '?' p.query++delimited '#' p.fragment)) := by
    refine (cut_eq_iff _ _ _ _).mpr ⟨rfl,h.authority,fun c hc => ?_⟩
    rcases head?_append_or _ _ c hc with hpath|⟨-,htail⟩
    · rw [h.slash c hpath]
      decide
    · rcases head?_tail _ _ c htail with rfl|rfl <;> decide
  have hpath : cut inPath (p.path++(delimited '?' p.query++delimited '#' p.fragment)) =
      (p.path,delimited '?' p.query++delimited '#' p.fragment) := by
    refine (cut_eq_iff _ _ _ _).mpr ⟨rfl,h.path,fun c hc => ?_⟩
    rcases head?_tail _ _ c hc with rfl|rfl <;> decide
  have hquery : cut inQuery (delimited '?' p.query++delimited '#' p.fragment) =
      (delimited '?' p.query,delimited '#' p.fragment) := by
    refine (cut_eq_iff _ _ _ _).mpr ⟨rfl,?_,fun c hc => ?_⟩
    · cases hq : p.query with
      | none => simp [delimited]
      | some q =>
        intro c hc
        rcases List.mem_cons.mp hc with rfl|hc
        · decide
        · exact h.query q hq c hc
    · rw [head?_delimited '#' c p.fragment hc]
      decide
  simp only [splitParts, splitRest, hscheme, afterSlashes, Option.map_some, hauthority, hpath,
    hquery, after_delimited]

theorem run_head (outer inner : Char → Bool) (a b : List Char)
    (hend : ∀ c, (a++b).head? = some c → outer c = false) (hrun : ∀ c ∈ a, inner c = true)
    (c : Char) (hc : a.head? = some c) : outer c = false ∧ inner c = true := by
  have hhead : (a++b).head? = some c := by rw [List.head?_append, hc, Option.some_or]
  exact ⟨hend c hhead,hrun c (List.mem_of_mem_head? hc)⟩

theorem text_of_split (s : List Char) (p : Parts) (h : splitParts s = some p) :
    s = p.text ∧ p.WellFormed := by
  obtain ⟨scheme,colon,hcut⟩ : ∃ a b, cut inScheme s = (a,b) := ⟨_,_,rfl⟩
  rw [splitParts, hcut] at h
  obtain ⟨rest,hrest,rfl⟩ := Option.map_eq_some_iff.mp h
  obtain ⟨authority,tail,hcut1⟩ : ∃ a b, cut inAuthority rest = (a,b) := ⟨_,_,rfl⟩
  obtain ⟨path,tail',hcut2⟩ : ∃ a b, cut inPath tail = (a,b) := ⟨_,_,rfl⟩
  obtain ⟨query,fragment,hcut3⟩ : ∃ a b, cut inQuery tail' = (a,b) := ⟨_,_,rfl⟩
  obtain ⟨rfl,hscheme,-⟩ := (cut_eq_iff _ _ _ _).mp hcut
  obtain ⟨rfl,hauthority,hend1⟩ := (cut_eq_iff _ _ _ _).mp hcut1
  obtain ⟨rfl,hpath,hend2⟩ := (cut_eq_iff _ _ _ _).mp hcut2
  obtain ⟨rfl,hquery,hend3⟩ := (cut_eq_iff _ _ _ _).mp hcut3
  have hslash : ∀ c, path.head? = some c → c = '/' := by
    intro c hc
    have hout := run_head inAuthority inPath _ _ hend1 hpath c hc
    simp only [inAuthority, inPath] at hout
    grind
  have hmark : ∀ c, query.head? = some c → c = '?' := by
    intro c hc
    have hout := run_head inPath inQuery _ _ hend2 hquery c hc
    simp only [inPath, inQuery] at hout
    grind
  have hsign : ∀ c, fragment.head? = some c → c = '#' := by
    intro c hc
    simpa [inQuery] using hend3 c hc
  have hcolon := (afterSlashes_eq_some_iff colon _).mp hrest
  simp only [splitRest, hcut1, hcut2, hcut3]
  constructor
  · rw [Parts.text, delimited_after '?' query hmark, delimited_after '#' fragment hsign, hcolon]
  · refine ⟨hscheme,hauthority,hslash,hpath,fun q hsome c hc => hquery c ?_⟩
    rw [← delimited_after '?' query hmark, show after '?' query = some q from hsome]
    exact List.mem_cons_of_mem _ hc

theorem splitParts_scheme (scheme rest : List Char) (h : ∀ c ∈ scheme, inScheme c = true) :
    splitParts (scheme++ ':' :: '/' :: '/' :: rest) = some (splitRest scheme rest) := by
  have hcut : cut inScheme (scheme++ ':' :: '/' :: '/' :: rest) =
      (scheme,':' :: '/' :: '/' :: rest) := by
    refine (cut_eq_iff _ _ _ _).mpr ⟨rfl,h,fun c hc => ?_⟩
    rw [← Option.some.inj hc]
    decide
  rw [splitParts, hcut]
  rfl

theorem inPath_of_inAuthority (c : Char) (h : inAuthority c = true) : inPath c = true := by
  simp only [inAuthority, inPath] at *
  grind

theorem delimited_eq_nil (d : Char) (t : Option (List Char)) (h : d ∉ delimited d t) :
    delimited d t = [] := by
  cases t with
  | none => rfl
  | some t => exact absurd List.mem_cons_self h

/-- The parts of a text are the well-formed ones that are written as it. -/
theorem splitParts_eq_some_iff (s : List Char) (p : Parts) :
    splitParts s = some p ↔ s = p.text ∧ p.WellFormed := by
  constructor
  · exact text_of_split s p
  · rintro ⟨rfl,h⟩
    exact splitParts_text p h

end ArchetypeProxy.UriParts
