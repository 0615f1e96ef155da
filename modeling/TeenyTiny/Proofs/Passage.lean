import TeenyTiny.Proofs.Layout
import TeenyTiny.Proofs.Names

/-! Passages of a program: what is read, what happens to names there, and what is written for it.
A scene is a place in a run, and one scene leads to another through a passage. -/
namespace TeenyTiny
open Text Piece

/-- Pieces whose events do not change what follows them. -/
def Settled (ps : List Piece) : Prop := ∀ qs, events (ps ++ qs) = events ps ++ events qs

theorem Settled.append {ps qs : List Piece} (hp : Settled ps) (hq : Settled qs) :
    Settled (ps ++ qs) := by
  intro rs
  rw [List.append_assoc,hp,hq,hp,List.append_assoc]

theorem settled_nil : Settled [] := fun _ => rfl

/-- Only the last piece tells what a name behind it does. -/
theorem settled_concat {p : Piece} (h : p.kind.role = .use) (ps : List Piece) :
    Settled (ps ++ [p]) := by
  have hrole : ∀ role qs, eventsAfter role (ps ++ [p] ++ qs) =
      eventsAfter role (ps ++ [p]) ++ eventsAfter .use qs := by
    intro role qs
    induction ps generalizing role with
    | nil =>
      simp only [List.nil_append,List.singleton_append,eventsAfter,h]
      split <;> rfl
    | cons q ps ih =>
      simp only [List.cons_append,eventsAfter,ih]
      split <;> rfl
  exact hrole .use

theorem events_cons {p : Piece} (h : p.kind.role = .use) (hi : p.kind ≠ .ident)
    (ps : List Piece) : events (p :: ps) = events ps := by
  simp only [events,eventsAfter,hi,if_false,h]

theorem role_of_isCopied {k : Kind} (h : k.isCopied) : k.role = .use := by
  cases k <;> first | rfl | cases h

theorem settled_of_isCopied {ps : List Piece} (h : ∀ p ∈ ps, p.kind.isCopied) : Settled ps := by
  rcases List.eq_nil_or_concat ps with rfl | ⟨qs,p,rfl⟩
  · exact settled_nil
  · rw [List.concat_eq_append]
    exact settled_concat (role_of_isCopied (h p (by simp))) qs

@[ext] structure Passage where
  pieces : List Piece
  events : List Event
  code : List Char

namespace Passage

instance : Append Passage :=
  ⟨fun p q => ⟨p.pieces ++ q.pieces,p.events ++ q.events,p.code ++ q.code⟩⟩

theorem append_def (p q : Passage) :
    p ++ q = ⟨p.pieces ++ q.pieces,p.events ++ q.events,p.code ++ q.code⟩ := rfl

@[simp] theorem append_pieces (p q : Passage) : (p ++ q).pieces = p.pieces ++ q.pieces := rfl
@[simp] theorem append_events (p q : Passage) : (p ++ q).events = p.events ++ q.events := rfl
@[simp] theorem append_code (p q : Passage) : (p ++ q).code = p.code ++ q.code := rfl

def token (p : Piece) : Passage := ⟨[p],[],[]⟩
def event (e : Event) : Passage := ⟨[],[e],[]⟩
def write (cs : List Char) : Passage := ⟨[],[],cs⟩

/-- Pieces of an expression, written as they are read. -/
def copy (ps : List Piece) : Passage := ⟨ps,TeenyTiny.events ps,copied ps⟩

theorem copy_append {ps : List Piece} (h : Settled ps) (qs : List Piece) :
    copy (ps ++ qs) = copy ps ++ copy qs := by
  simp [copy,append_def,h qs]

end Passage

/-- The items still to be read, what happened to names so far, and what is written. -/
structure Scene where
  ahead : List (Except Fault Token)
  events : List Event
  body : List Char

namespace Scene

/-- The kind of the next token. -/
def kind (s : Scene) : Kind :=
  match s.ahead with
  | .ok t :: _ => t.kind
  | _ => .eof

/-- No fault lies ahead. -/
def Clean (s : Scene) : Prop := ∀ fault, .error fault ∉ s.ahead

/-- `s'` is the scene behind a passage that begins in `s`. -/
structure Reads (s s' : Scene) (p : Passage) : Prop where
  tokens : ∃ ts : List Token, s.ahead = ts.map .ok ++ s'.ahead ∧
    Spread p.pieces (ts.map Token.piece)
  allowed : AllowedAfter s.events p.events
  events : s'.events = s.events ++ p.events
  body : s'.body = s.body ++ p.code

variable {s s' s'' : Scene} {p q : Passage}

theorem Reads.trans (h : s.Reads s' p) (h' : s'.Reads s'' q) : s.Reads s'' (p ++ q) := by
  obtain ⟨⟨ts,ha,hs⟩,hal,he,hb⟩ := h
  obtain ⟨⟨us,ha',hs'⟩,hal',he',hb'⟩ := h'
  refine ⟨⟨ts ++ us,?_,?_⟩,?_,?_,?_⟩
  · rw [ha,ha',List.map_append,List.append_assoc]
  · rw [List.map_append]
    exact hs.append hs'
  · exact allowedAfter_append.mpr ⟨hal,he ▸ hal'⟩
  · rw [he',he,Passage.append_events,List.append_assoc]
  · rw [hb',hb,Passage.append_code,List.append_assoc]

/-- Two passages in a row have a scene between them. -/
theorem reads_append : s.Reads s'' (p ++ q) ↔ ∃ s', s.Reads s' p ∧ s'.Reads s'' q := by
  constructor
  · rintro ⟨⟨ts,ha,hs⟩,hal,he,hb⟩
    obtain ⟨rs,rs',hr,hp,hq⟩ := Spread.append_iff.mp hs
    obtain ⟨us,vs,rfl,rfl,rfl⟩ := List.map_eq_append_iff.mp hr
    obtain ⟨hal,hal'⟩ := allowedAfter_append.mp hal
    refine ⟨⟨vs.map .ok ++ s''.ahead,s.events ++ p.events,s.body ++ p.code⟩,
      ⟨⟨us,?_,hp⟩,hal,rfl,rfl⟩,⟨⟨vs,rfl,hq⟩,hal',?_,?_⟩⟩
    · rw [ha,List.map_append,List.append_assoc]
    · rw [he,Passage.append_events,List.append_assoc]
    · rw [hb,Passage.append_code,List.append_assoc]
  · rintro ⟨s',h,h'⟩
    exact h.trans h'

theorem reads_token {x : Piece} (hx : x.kind ≠ .newline) : s.Reads s' (.token x) ↔
    ∃ t : Token, t.piece = x ∧ s = ⟨.ok t :: s'.ahead,s'.events,s'.body⟩ := by
  constructor
  · rintro ⟨⟨ts,ha,hs⟩,-,he,hb⟩
    have hp := Spread.eq_of_ne_newline (by simpa [Passage.token] using hx) hs
    obtain ⟨t,rfl,ht⟩ := List.map_eq_singleton_iff.mp hp
    refine ⟨t,ht,?_⟩
    obtain ⟨ahead,events,body⟩ := s
    simp_all [Passage.token]
  · rintro ⟨t,rfl,rfl⟩
    exact ⟨⟨[t],rfl,.refl _⟩,trivial,by simp [Passage.token],by simp [Passage.token]⟩

theorem reads_write {cs : List Char} :
    s.Reads s' (.write cs) ↔ s' = { s with body := s.body ++ cs } := by
  constructor
  · rintro ⟨⟨ts,ha,hs⟩,-,he,hb⟩
    obtain rfl : ts = [] := by simpa using Spread.nil_iff.mp hs
    obtain ⟨ahead,events,body⟩ := s'
    simp_all [Passage.write]
  · rintro rfl
    exact ⟨⟨[],rfl,.nil⟩,trivial,by simp [Passage.write],rfl⟩

theorem reads_event {e : Event} : s.Reads s' (.event e) ↔
    e.Allowed s.events ∧ s' = { s with events := s.events ++ [e] } := by
  constructor
  · rintro ⟨⟨ts,ha,hs⟩,hal,he,hb⟩
    obtain rfl : ts = [] := by simpa using Spread.nil_iff.mp hs
    refine ⟨allowedAfter_singleton.mp hal,?_⟩
    obtain ⟨ahead,events,body⟩ := s'
    simp_all [Passage.event]
  · rintro ⟨ha,rfl⟩
    exact ⟨⟨[],rfl,.nil⟩,allowedAfter_singleton.mpr ha,rfl,by simp [Passage.event]⟩

theorem Reads.clean (h : s.Reads s' p) (hc : s'.Clean) : s.Clean := by
  obtain ⟨⟨ts,ha,-⟩,-,-,-⟩ := h
  intro fault hf
  rw [ha] at hf
  rcases List.mem_append.mp hf with hf | hf
  · simp at hf
  · exact hc fault hf

theorem Reads.length_le (h : s.Reads s' p) : s'.ahead.length ≤ s.ahead.length := by
  obtain ⟨⟨ts,ha,-⟩,-,-,-⟩ := h
  simp [ha]

theorem Reads.length_add_le (h : s.Reads s' p) :
    p.pieces.length + s'.ahead.length ≤ s.ahead.length := by
  obtain ⟨⟨ts,ha,hs⟩,-,-,-⟩ := h
  have hl := hs.length_le
  simp only [List.length_map] at hl
  simp only [ha,List.length_append,List.length_map]
  omega

/-- The first piece of a passage lies ahead. -/
theorem Reads.head_eq {x : Piece} {ps : List Piece} (h : s.Reads s' p)
    (hp : p.pieces = x :: ps) : ∃ t rest, s.ahead = .ok t :: rest ∧ t.piece = x := by
  obtain ⟨⟨ts,ha,hs⟩,-,-,-⟩ := h
  rw [hp] at hs
  cases ts with
  | nil => cases hs
  | cons t ts => exact ⟨t,_,ha,hs.head_eq⟩

theorem Reads.kind_eq {x : Piece} {ps : List Piece} (h : s.Reads s' p)
    (hp : p.pieces = x :: ps) : s.kind = x.kind := by
  obtain ⟨t,rest,ha,rfl⟩ := h.head_eq hp
  simp [kind,ha,Token.piece]

end Scene
end TeenyTiny
