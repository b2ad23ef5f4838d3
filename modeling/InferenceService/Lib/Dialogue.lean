import InferenceService.Lib.Lts
import Mathlib.Algebra.BigOperators.Group.List.Basic
import Mathlib.Algebra.GroupWithZero.Nat

/-!
# Clients of one object

A client makes calls and goes on with their answers until it ends. Any number
of clients share one object that serves one call at a time. What each of them
sees is a path of its own, and what the object counts is what they did.
-/

/-- The call that a client makes next, `none` when it has ended. -/
structure Dialogue (Q Call : Type) (Answer : Call → Type) where
  view : Q → Option ((c : Call) × (Answer c → Q))

namespace Dialogue

section
variable {Q Call : Type} {Answer : Call → Type} (D : Dialogue Q Call Answer)

/-- The calls with their answers that lead from one state to another. -/
inductive Path : Q → List ((c : Call) × Answer c) → Q → Prop
  | nil (q : Q) : Path q [] q
  | cons {q q' : Q} {c : Call} {next : Answer c → Q} {a : Answer c} {es : List ((c : Call) × Answer c)}
      (hv : D.view q = some ⟨c, next⟩) (h : Path (next a) es q') : Path q (⟨c, a⟩ :: es) q'

variable {D}

theorem Path.snoc {q q' : Q} {es : List ((c : Call) × Answer c)} (h : D.Path q es q') {c : Call}
    {next : Answer c → Q} (hv : D.view q' = some ⟨c, next⟩) (a : Answer c) :
    D.Path q (es ++ [⟨c, a⟩]) (next a) := by
  induction h with
  | nil q => exact .cons hv (.nil _)
  | cons hq _ ih => exact .cons hq (ih hv)

theorem Path.invariant {P : List ((c : Call) × Answer c) → Q → Prop} {q q' : Q} {es : List ((c : Call) × Answer c)}
    (h : D.Path q es q') (h₀ : P [] q) (hstep : ∀ es q c next a, P es q → D.view q = some ⟨c, next⟩ →
      P (es ++ [⟨c, a⟩]) (next a)) : P es q' := by
  -- The calls before the path are carried along.
  have hall : ∀ before, P before q → P (before ++ es) q' := by
    clear h₀
    induction h with
    | nil q =>
      intro before hb
      rw [List.append_nil]
      exact hb
    | cons hv _ ih =>
      intro before hb
      have := ih (before ++ [_]) (hstep before _ _ _ _ hb hv)
      rwa [List.append_assoc] at this
  exact hall [] h₀

end
end Dialogue

/-! ## Programs -/

inductive Program (Call : Type) (Answer : Call → Type) (R : Type) where
  | ret (r : R)
  | call (c : Call) (next : Answer c → Program Call Answer R)

namespace Program

section
variable {Call : Type} {Answer : Call → Type} {R S : Type}

def bind : Program Call Answer R → (R → Program Call Answer S) → Program Call Answer S
  | ret r, f => f r
  | call c next, f => call c fun a => (next a).bind f

/-- The program for a wider interface. -/
def embed {Call' : Type} {Answer' : Call' → Type} (f : Call → Call') :
    Program Call (fun c => Answer' (f c)) R → Program Call' Answer' R
  | ret r => ret r
  | call c next => call (f c) fun a => (next a).embed f

def isRet : Program Call Answer R → Bool
  | ret _ => true
  | call _ _ => false

theorem isRet_iff {p : Program Call Answer R} : p.isRet = true ↔ ∃ r, p = ret r := by
  cases p <;> simp [isRet]

def dialogue : Dialogue (Program Call Answer R) Call Answer where
  view
  | ret _ => none
  | call c next => some ⟨c, next⟩

/-- The program returns `r` after these calls. -/
def Returns (p : Program Call Answer R) (es : List ((c : Call) × Answer c)) (r : R) : Prop :=
  dialogue.Path p es (ret r)

theorem returns_ret {r r' : R} {es : List ((c : Call) × Answer c)} :
    (ret r : Program Call Answer R).Returns es r' ↔ es = [] ∧ r = r' := by
  constructor
  · intro h
    cases h with
    | nil => exact ⟨rfl, rfl⟩
    | cons hv _ => cases hv
  · rintro ⟨rfl, rfl⟩
    exact .nil _

theorem returns_call {c : Call} {next : Answer c → Program Call Answer R} {es : List ((c : Call) × Answer c)} {r : R} :
    (call c next).Returns es r ↔ ∃ a es', es = ⟨c, a⟩ :: es' ∧ (next a).Returns es' r := by
  constructor
  · intro h
    cases h with
    | cons hv h =>
      cases hv
      exact ⟨_, _, rfl, h⟩
  · rintro ⟨a, es', rfl, h⟩
    exact .cons rfl h

theorem returns_bind {p : Program Call Answer R} {f : R → Program Call Answer S} {es : List ((c : Call) × Answer c)}
    {s : S} : (p.bind f).Returns es s ↔
      ∃ es₁ es₂ r, es = es₁ ++ es₂ ∧ p.Returns es₁ r ∧ (f r).Returns es₂ s := by
  induction p generalizing es with
  | ret r =>
    simp only [bind, returns_ret]
    constructor
    · exact fun h => ⟨[], es, r, rfl, ⟨rfl, rfl⟩, h⟩
    · rintro ⟨_, es₂, _, rfl, ⟨rfl, rfl⟩, h⟩
      exact h
  | call c next ih =>
    simp only [bind, returns_call, ih]
    constructor
    · rintro ⟨a, _, rfl, es₁, es₂, r, rfl, h, h'⟩
      exact ⟨⟨c, a⟩ :: es₁, es₂, r, rfl, ⟨a, es₁, rfl, h⟩, h'⟩
    · rintro ⟨_, es₂, r, rfl, ⟨a, es₁, rfl, h⟩, h'⟩
      exact ⟨a, es₁ ++ es₂, rfl, es₁, es₂, r, rfl, h, h'⟩

theorem returns_embed {Call' : Type} {Answer' : Call' → Type} {f : Call → Call'}
    {p : Program Call (fun c => Answer' (f c)) R} {es : List ((c : Call') × Answer' c)} {r : R} :
    (p.embed f).Returns es r ↔ ∃ es', es = es'.map (fun e => ⟨f e.1, e.2⟩) ∧ p.Returns es' r := by
  induction p generalizing es with
  | ret r' =>
    simp only [embed, returns_ret]
    constructor
    · rintro ⟨rfl, rfl⟩
      exact ⟨[], rfl, rfl, rfl⟩
    · rintro ⟨_, rfl, rfl, rfl⟩
      exact ⟨rfl, rfl⟩
  | call c next ih =>
    simp only [embed, returns_call, ih]
    constructor
    · rintro ⟨a, _, rfl, es', rfl, h⟩
      exact ⟨⟨c, a⟩ :: es', rfl, a, es', rfl, h⟩
    · rintro ⟨_, rfl, a, es', rfl, h⟩
      exact ⟨a, _, rfl, es', rfl, h⟩

/-! ## What programs meet -/

variable {p : Program Call Answer R} {f : R → Program Call Answer S}

/-- What holds of the calls and the result of every complete run. -/
def Meets (p : Program Call Answer R) (post : List ((c : Call) × Answer c) → R → Prop) : Prop :=
  ∀ es r, p.Returns es r → post es r

theorem meets_ret {post : List ((c : Call) × Answer c) → R → Prop} {r : R} (h : post [] r) :
    (ret r : Program Call Answer R).Meets post := by
  intro es r' hr
  obtain ⟨rfl, rfl⟩ := returns_ret.mp hr
  exact h

theorem meets_call {post : List ((c : Call) × Answer c) → R → Prop} {c : Call} {next : Answer c → Program Call Answer R}
    (h : ∀ a, (next a).Meets fun es r => post (⟨c, a⟩ :: es) r) : (call c next).Meets post := by
  intro es r hr
  obtain ⟨a, es', rfl, hr'⟩ := returns_call.mp hr
  exact h a es' r hr'

theorem Meets.imp {mid post : List ((c : Call) × Answer c) → R → Prop} (h : p.Meets mid)
    (himp : ∀ es r, mid es r → post es r) : p.Meets post :=
  fun es r hr => himp es r (h es r hr)

theorem meets_embed {Call' : Type} {Answer' : Call' → Type} {f : Call → Call'}
    {p : Program Call (fun c => Answer' (f c)) R} {post : List ((c : Call') × Answer' c) → R → Prop}
    (h : p.Meets fun es r => post (es.map fun e => ⟨f e.1, e.2⟩) r) : (p.embed f).Meets post := by
  intro es r hr
  obtain ⟨es', rfl, hr'⟩ := returns_embed.mp hr
  exact h es' r hr'

/-- What holds of the calls at every moment of a run. -/
def Always (p : Program Call Answer R) (inv : List ((c : Call) × Answer c) → Prop) : Prop :=
  ∀ es q, dialogue.Path p es q → inv es

theorem always_ret {inv : List ((c : Call) × Answer c) → Prop} {r : R} (h : inv []) :
    (ret r : Program Call Answer R).Always inv := by
  intro es q hp
  cases hp with
  | nil => exact h
  | cons hv _ => cases hv

theorem always_call {inv : List ((c : Call) × Answer c) → Prop} {c : Call} {next : Answer c → Program Call Answer R}
    (h₀ : inv []) (h : ∀ a, (next a).Always fun es => inv (⟨c, a⟩ :: es)) : (call c next).Always inv := by
  intro es q hp
  cases hp with
  | nil => exact h₀
  | cons hv hp =>
    cases hv
    exact h _ _ q hp

theorem path_bind {es : List ((c : Call) × Answer c)} {q : Program Call Answer S} (h : dialogue.Path (p.bind f) es q) :
    (∃ q', dialogue.Path p es q') ∨
      ∃ es₁ es₂ r, es = es₁ ++ es₂ ∧ p.Returns es₁ r ∧ dialogue.Path (f r) es₂ q := by
  induction p generalizing es with
  | ret r => exact .inr ⟨[], es, r, rfl, .nil _, h⟩
  | call c next ih =>
    cases h with
    | nil => exact .inl ⟨_, .nil _⟩
    | cons hv h =>
      cases hv
      rcases ih _ h with ⟨q', hq⟩ | ⟨es₁, es₂, r, rfl, hr, hq⟩
      · exact .inl ⟨q', .cons rfl hq⟩
      · exact .inr ⟨_ :: es₁, es₂, r, rfl, .cons rfl hr, hq⟩

theorem always_bind {inv : List ((c : Call) × Answer c) → Prop} (hp : p.Always inv)
    (hf : ∀ es r, p.Returns es r → (f r).Always fun es' => inv (es ++ es')) : (p.bind f).Always inv := by
  intro es q h
  rcases path_bind h with ⟨q', hq⟩ | ⟨es₁, es₂, r, rfl, hr, hq⟩
  · exact hp es q' hq
  · exact hf es₁ r hr es₂ q hq

theorem Always.imp {inv inv' : List ((c : Call) × Answer c) → Prop} (h : p.Always inv) (himp : ∀ es, inv es → inv' es) :
    p.Always inv' :=
  fun es q hp => himp es (h es q hp)

theorem always_embed {Call' : Type} {Answer' : Call' → Type} {f : Call → Call'}
    {p : Program Call (fun c => Answer' (f c)) R} {inv : List ((c : Call') × Answer' c) → Prop}
    (h : p.Always fun es => inv (es.map fun e => ⟨f e.1, e.2⟩)) : (p.embed f).Always inv := by
  induction p generalizing inv with
  | ret r => exact always_ret (h [] _ (.nil _))
  | call c next ih =>
    apply always_call (h [] _ (.nil _))
    intro a
    exact ih a fun es q hp => h (⟨c, a⟩ :: es) q (.cons rfl hp)

end
end Program

/-! ## Clients that share an object -/

/-- What an object answers to a call, under what the call meets, and what else
may happen to it. -/
structure SharedObject (σ ι κ Call : Type) (Answer : Call → Type) where
  serve : σ → ι → (c : Call) → Option (Answer c × σ)
  own : σ → κ → Option σ

structure Client (Q P Call : Type) (Answer : Call → Type) where
  origin : P
  now : Q
  trace : List ((c : Call) × Answer c)

structure Crowd (σ Q P Call : Type) (Answer : Call → Type) where
  object : σ
  clients : List (Client Q P Call Answer)

namespace Crowd

inductive Act (ι κ P : Type) where
  | arrive (p : P)
  | call (i : Nat) (input : ι)
  | own (k : κ)

section
variable {σ ι κ Q P Call : Type} {Answer : Call → Type} (D : Dialogue Q Call Answer)
  (O : SharedObject σ ι κ Call Answer) (start : P → Q) (s₀ : σ)

def call (s : Crowd σ Q P Call Answer) (i : Nat) (client : Client Q P Call Answer) (input : ι) :
    Option (Crowd σ Q P Call Answer) :=
  match D.view client.now with
  | none => none
  | some ⟨c, next⟩ => (O.serve s.object input c).map fun r => {
      object := r.2
      clients := s.clients.set i ⟨client.origin, next r.1, client.trace ++ [⟨c, r.1⟩]⟩ }

def system : Lts (Crowd σ Q P Call Answer) (Act ι κ P) where
  init := ⟨s₀, []⟩
  step s
    | .arrive p => some { s with clients := s.clients ++ [⟨p, start p, []⟩] }
    | .call i input => s.clients[i]?.bind fun client => s.call D O i client input
    | .own k => (O.own s.object k).map fun object => { s with object }

inductive Moves (s : Crowd σ Q P Call Answer) : Crowd σ Q P Call Answer → Prop
  | arrive (p : P) : Moves s { s with clients := s.clients ++ [⟨p, start p, []⟩] }
  | call {i : Nat} {client : Client Q P Call Answer} {c : Call} {next : Answer c → Q} {input : ι} {a : Answer c}
      {object : σ} (hi : s.clients[i]? = some client) (hv : D.view client.now = some ⟨c, next⟩)
      (hs : O.serve s.object input c = some (a, object)) :
      Moves s ⟨object, s.clients.set i ⟨client.origin, next a, client.trace ++ [⟨c, a⟩]⟩⟩
  | own {k : κ} {object : σ} (hs : O.own s.object k = some object) : Moves s { s with object }

variable {D O start s₀} {s t : Crowd σ Q P Call Answer}

theorem moves {act : Act ι κ P} (h : (system D O start s₀).step s act = some t) : Moves D O start s t := by
  cases act with
  | arrive p =>
    obtain rfl := Option.some.inj h
    exact .arrive p
  | call i input =>
    obtain ⟨client, hi, h⟩ := Option.bind_eq_some_iff.mp h
    unfold call at h
    cases hv : D.view client.now with
    | none => rw [hv] at h; cases h
    | some v =>
      rw [hv] at h
      obtain ⟨r, hs, rfl⟩ := Option.map_eq_some_iff.mp h
      exact .call hi hv hs
  | own k =>
    obtain ⟨object, hs, rfl⟩ := Option.map_eq_some_iff.mp h
    exact .own hs

/-- Whatever the others do, a client follows its own program. -/
theorem reachable_paths (hs : (system D O start s₀).Reachable s) :
    ∀ client ∈ s.clients, D.Path (start client.origin) client.trace client.now := by
  refine hs.invariant (P := fun s => ∀ client ∈ s.clients, D.Path (start client.origin) client.trace client.now) ?_ ?_
  · intro client h
    cases h
  · intro s act t _ ih hstep
    cases moves hstep with
    | arrive p =>
      intro client h
      rcases List.mem_append.mp h with h | h
      · exact ih client h
      · obtain rfl := List.mem_singleton.mp h
        exact .nil _
    | call hi hv _ =>
      intro client h
      rcases List.mem_or_eq_of_mem_set h with h | rfl
      · exact ih client h
      · exact (ih _ (List.mem_of_getElem? hi)).snoc hv _
    | own _ => exact ih

/-! ## What an object keeps and counts -/

theorem reachable_object {I : σ → Prop} (h₀ : I s₀)
    (hserve : ∀ o input c a o', I o → O.serve o input c = some (a, o') → I o')
    (hown : ∀ o k o', I o → O.own o k = some o' → I o') (hs : (system D O start s₀).Reachable s) : I s.object := by
  refine hs.invariant (P := fun s => I s.object) h₀ ?_
  intro s act t _ ih hstep
  cases moves hstep with
  | arrive _ => exact ih
  | call _ _ hs => exact hserve _ _ _ _ _ ih hs
  | own hs => exact hown _ _ _ ih hs

def tally (w : (c : Call) × Answer c → Nat) (s : Crowd σ Q P Call Answer) : Nat :=
  (s.clients.map fun client => (client.trace.map w).sum).sum

theorem sum_map_set {α : Type} (f : α → Nat) {l : List α} {i : Nat} {x : α} (hi : l[i]? = some x) (y : α) :
    ((l.set i y).map f).sum + f x = (l.map f).sum + f y := by
  induction l generalizing i with
  | nil => cases hi
  | cons z l ih =>
    cases i with
    | zero =>
      obtain rfl : z = x := by simpa using hi
      simp only [List.set_cons_zero, List.map_cons, List.sum_cons]
      omega
    | succ i =>
      have := ih (by simpa using hi)
      simp only [List.set_cons_succ, List.map_cons, List.sum_cons]
      omega

theorem tally_call (w : (c : Call) × Answer c → Nat) {i : Nat} {client : Client Q P Call Answer} {c : Call}
    (hi : s.clients[i]? = some client) (a : Answer c) (q : Q) (object : σ) :
    (Crowd.mk object (s.clients.set i ⟨client.origin, q, client.trace ++ [⟨c, a⟩]⟩)).tally w =
      s.tally w + w ⟨c, a⟩ := by
  have hset := sum_map_set (fun client : Client Q P Call Answer => (client.trace.map w).sum) hi
    ⟨client.origin, q, client.trace ++ [⟨c, a⟩]⟩
  simp only [List.map_append, List.map_cons, List.map_nil, List.sum_append, List.sum_cons, List.sum_nil] at hset
  dsimp only [tally]
  omega

@[simp] theorem tally_arrive (w : (c : Call) × Answer c → Nat) (p : P) (q : Q) :
    (Crowd.mk s.object (s.clients ++ [⟨p, q, []⟩])).tally w = s.tally w := by
  simp [tally]

/-- A counter that each call raises by one weight and lowers by another is the
balance of what all clients did. -/
theorem reachable_balance {m : σ → Nat} {w v : (c : Call) × Answer c → Nat}
    (hserve : ∀ o input c a o', O.serve o input c = some (a, o') → m o' + v ⟨c, a⟩ = m o + w ⟨c, a⟩)
    (hown : ∀ o k o', O.own o k = some o' → m o' = m o) (hs : (system D O start s₀).Reachable s) :
    m s.object + s.tally v = m s₀ + s.tally w := by
  refine hs.invariant (P := fun s => m s.object + s.tally v = m s₀ + s.tally w) rfl ?_
  intro s act t _ ih hstep
  cases moves hstep with
  | arrive p =>
    rw [tally_arrive, tally_arrive]
    exact ih
  | call hi _ hs =>
    have := hserve _ _ _ _ _ hs
    rw [tally_call w hi, tally_call v hi]
    dsimp only
    omega
  | own hs =>
    have := hown _ _ _ hs
    simp only [tally] at ih ⊢
    omega

theorem reachable_tally {m : σ → Nat} {w : (c : Call) × Answer c → Nat}
    (hserve : ∀ o input c a o', O.serve o input c = some (a, o') → m o' = m o + w ⟨c, a⟩)
    (hown : ∀ o k o', O.own o k = some o' → m o' = m o) (hs : (system D O start s₀).Reachable s) :
    m s.object = m s₀ + s.tally w := by
  have hzero : s.tally (fun _ => 0) = 0 := by simp [tally]
  have := reachable_balance (v := fun _ => 0) (fun o input c a o' h => hserve o input c a o' h) hown hs
  omega

/-- What each client has to do with the object, when no call and no move of the
object spoils it for the others. -/
theorem reachable_clients {K : σ → Client Q P Call Answer → Prop} {I : σ → Prop}
    (hI : ∀ {s}, (system D O start s₀).Reachable s → I s.object) (harrive : ∀ o p, K o ⟨p, start p, []⟩)
    (hothers : ∀ o input c a o' client, I o → O.serve o input c = some (a, o') → K o client → K o' client)
    (hcall : ∀ o input c a o' client next, I o → O.serve o input c = some (a, o') →
      D.view client.now = some ⟨c, next⟩ → K o client → K o' ⟨client.origin, next a, client.trace ++ [⟨c, a⟩]⟩)
    (hown : ∀ o k o' client, I o → O.own o k = some o' → K o client → K o' client)
    (hs : (system D O start s₀).Reachable s) : ∀ client ∈ s.clients, K s.object client := by
  refine hs.invariant (P := fun s => ∀ client ∈ s.clients, K s.object client) ?_ ?_
  · intro client h
    cases h
  · intro s act t hs ih hstep
    cases moves hstep with
    | arrive p =>
      intro client h
      rcases List.mem_append.mp h with h | h
      · exact ih client h
      · obtain rfl := List.mem_singleton.mp h
        exact harrive s.object p
    | call hi hv hserve =>
      intro client h
      rcases List.mem_or_eq_of_mem_set h with h | rfl
      · exact hothers _ _ _ _ _ client (hI hs) hserve (ih client h)
      · exact hcall _ _ _ _ _ _ _ (hI hs) hserve hv (ih _ (List.mem_of_getElem? hi))
    | own hmove =>
      intro client h
      exact hown _ _ _ client (hI hs) hmove (ih client h)

end
end Crowd
