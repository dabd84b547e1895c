import ArchetypeProxy.Http

/-!
# Response headers that stay at the proxy

The proxy drops the static hop-by-hop headers and the names the upstream
nominates in its `Connection` header. It reads the first line of that header
only, and only if the line is text. A nominated header leaks exactly when
the nomination stands in a line that is not read and nowhere else.
-/

set_option autoImplicit false

namespace ArchetypeProxy.HopByHop
open ArchetypeProxy.Text ArchetypeProxy.CounterNonce ArchetypeProxy.Http

structure HeaderMap where
  lines : Headers
  named : ∀ h ∈ lines, h.1 ≠ "" ∧ toAsciiLowercase h.1 = h.1

def staticHopByHop : List String :=
  ["content-length","transfer-encoding","connection","keep-alive","proxy-authenticate",
    "proxy-authorization","te","trailer","upgrade"]

def splitComma (s : String) : List String := (s.toList.splitOnP (· == ',')).map String.ofList

def tokens (s : String) : List String := (splitComma s).map (fun t => toAsciiLowercase (trim t))

def connectionTokens (hs : Headers) : List String :=
  ((hs.text "connection").toList.flatMap tokens).filter (fun t => !isEmpty t)

def strip (hs : Headers) : List String := connectionTokens hs++staticHopByHop

/-- The headers of the head frame. A value that is not text is left out. -/
def forwardedHeaders (hs : Headers) : List (String × String) :=
  (hs.filter (fun h => !(strip hs).contains h.1)).filterMap
    (fun h => (toStr h.2).map (Prod.mk h.1))

/-- The line names the header in its list, whatever other bytes it holds. -/
def Nominates (line : Bytes) (name : String) : Prop :=
  toAsciiLowercase name ∈ tokens (String.ofList (line.map (fun b => Char.ofNat b.toNat)))

instance (line : Bytes) (name : String) : Decidable (Nominates line name) :=
  inferInstanceAs (Decidable (_ ∈ _))

def NoLeak (m : HeaderMap) : Prop :=
  ∀ h ∈ forwardedHeaders m.lines, h.1 ∉ staticHopByHop ∧
    ∀ line ∈ m.lines.values "connection", ¬ Nominates line h.1

/-- The connection line the proxy reads: the first one, if it is text. -/
def readLines (hs : Headers) : List Bytes :=
  ((hs.values "connection").take 1).filter (fun line => line.all visible)

def unreadLines (hs : Headers) : List Bytes :=
  ((hs.values "connection").take 1).filter (fun line => !line.all visible) ++
    (hs.values "connection").drop 1

theorem mem_values_iff (hs : Headers) (line : Bytes) :
    line ∈ hs.values "connection" ↔ line ∈ readLines hs ∨ line ∈ unreadLines hs := by
  rw [readLines, unreadLines]
  rcases hs.values "connection" with _|⟨first,rest⟩
  · simp
  · by_cases ht : first.all visible = true <;> simp [ht]

theorem mem_connectionTokens_iff (hs : Headers) (name : String) (hne : name ≠ "")
    (hlower : toAsciiLowercase name = name) :
    name ∈ connectionTokens hs ↔ ∃ line ∈ readLines hs, Nominates line name := by
  have hempty := (isEmpty_eq_false_iff name).mpr hne
  rw [connectionTokens, Headers.text, get_eq_head, readLines, List.mem_filter]
  rcases hs.values "connection" with _|⟨first,rest⟩
  · simp
  · by_cases ht : first.all visible = true <;>
      simp [ht, toStr, Nominates, hlower, hempty]

theorem mem_forwardedHeaders_iff (hs : Headers) (name value : String) :
    (name,value) ∈ forwardedHeaders hs ↔
      (∃ bytes, (name,bytes) ∈ hs ∧ toStr bytes = some value) ∧
        name ∉ connectionTokens hs ∧ name ∉ staticHopByHop := by
  rw [forwardedHeaders, List.mem_filterMap]
  constructor
  · rintro ⟨⟨n,bytes⟩,hmem,hvalue⟩
    simp only [List.mem_filter, strip] at hmem
    obtain ⟨v,htext,heq⟩ := Option.map_eq_some_iff.mp hvalue
    obtain ⟨rfl,rfl⟩ := Prod.mk.inj heq
    exact ⟨⟨bytes,hmem.1,htext⟩,by simpa using hmem.2⟩
  · rintro ⟨⟨bytes,hmem,htext⟩,hout⟩
    refine ⟨(name,bytes),List.mem_filter.mpr ⟨hmem,?_⟩,?_⟩
    · simpa [strip] using hout
    · simp [htext]

/-- The strip set keeps every nominated header back exactly when a text header
that an unread connection line nominates is static or nominated by the line
read as well. -/
theorem no_leak_iff_unread_nominations_covered (m : HeaderMap) :
    NoLeak m ↔ ∀ h ∈ m.lines, h.2.all visible = true →
      (∃ line ∈ unreadLines m.lines, Nominates line h.1) →
        h.1 ∈ staticHopByHop ∨ ∃ line ∈ readLines m.lines, Nominates line h.1 := by
  constructor
  · rintro hno ⟨name,bytes⟩ hmem htext ⟨line,hunread,hnom⟩
    by_contra hcover
    obtain ⟨hstatic,hread⟩ := not_or.mp hcover
    obtain ⟨hne,hlower⟩ := m.named _ hmem
    have hforward := (mem_forwardedHeaders_iff m.lines name _).mpr
      ⟨⟨bytes,hmem,if_pos htext⟩,(mem_connectionTokens_iff _ _ hne hlower).not.mpr hread,hstatic⟩
    exact (hno _ hforward).2 line ((mem_values_iff _ _).mpr (Or.inr hunread)) hnom
  · rintro hcovered ⟨name,value⟩ hforward
    obtain ⟨⟨bytes,hmem,hvalue⟩,htoken,hstatic⟩ := (mem_forwardedHeaders_iff _ _ _).mp hforward
    obtain ⟨hne,hlower⟩ := m.named _ hmem
    have hread := (mem_connectionTokens_iff _ _ hne hlower).not.mp htoken
    refine ⟨hstatic,fun line hline hnom => ?_⟩
    rcases (mem_values_iff _ _).mp hline with hl|hl
    · exact hread ⟨line,hl,hnom⟩
    · have htext : bytes.all visible = true := by
        by_contra hnot
        rw [toStr, if_neg hnot] at hvalue
        exact absurd hvalue (by simp)
      exact (hcovered _ hmem htext ⟨line,hl,hnom⟩).elim hstatic hread

def twoConnectionLines : HeaderMap where
  lines := [("connection",[99,108,111,115,101]),
    ("connection",[83,101,116,45,67,111,111,107,105,101]),("set-cookie",[115])]
  named := by decide

theorem second_line_not_read : ¬ NoLeak twoConnectionLines := by
  intro hno
  have hforward : ("set-cookie","s") ∈ forwardedHeaders twoConnectionLines.lines := by decide
  exact (hno _ hforward).2 [83,101,116,45,67,111,111,107,105,101] (by decide) (by decide)

end ArchetypeProxy.HopByHop
