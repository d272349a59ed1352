import EnvKernel.Interrupt.Handler
import Mathlib.Data.List.Induction

/-!
Which function a fault is attributed to. The main statement is `attributes_nearest`: in whatever order
the symbols stand, and however many of them share a name or an address, a search by address finds nothing
exactly if no function that is there begins at or below the address. Otherwise it finds the one that
begins nearest to it, and of several that begin there the last of the list. So what a report takes off
the address is never more than the address, and what a name stands for is found again by its address.
-/

namespace EnvKernel

/-- A function that is there begins at or below the address. -/
def KernelSymbol.Reaches (s : KernelSymbol) (addr : UInt64) : Prop := s.addr ≠ 0 ∧ s.addr ≤ addr

instance (s : KernelSymbol) (addr : UInt64) : Decidable (s.Reaches addr) :=
  inferInstanceAs (Decidable (_ ∧ _))

namespace SymbolTable

variable {t : SymbolTable} {symbols : List KernelSymbol} {s b : KernelSymbol}
  {best best' : Option KernelSymbol}
  {addr : UInt64} {name : String} {i j : Nat}

/-- Symbol number `i` is the nearest one at or below the address, and the last one that begins there. -/
structure Nearest (t : SymbolTable) (addr : UInt64) (i : Nat) (s : KernelSymbol) : Prop where
  entry : t.symbols[i]? = some s
  reaches : s.Reaches addr
  greatest : ∀ s' ∈ t.symbols, s'.Reaches addr → s'.addr ≤ s.addr
  last : ∀ j s', t.symbols[j]? = some s' → s'.addr = s.addr → j ≤ i

/-- What is to be found for an address: the nearest symbol, or nothing if no symbol reaches it. -/
def Finds (t : SymbolTable) (addr : UInt64) : Option KernelSymbol → Prop
  | none => ∀ s ∈ t.symbols, ¬ s.Reaches addr
  | some s => ∃ i, t.Nearest addr i s

/-! ### One more symbol -/

/-- A symbol that reaches the address and ends the list is the nearest one unless another one lies higher. -/
theorem nearest_concat (hreaches : s.Reaches addr)
    (hle : ∀ s' ∈ symbols, s'.Reaches addr → s'.addr ≤ s.addr) :
    Nearest ⟨symbols ++ [s]⟩ addr symbols.length s where
  entry := List.getElem?_concat_length
  reaches := hreaches
  greatest s' hmem hs' := by
    rcases List.mem_append.1 hmem with hmem | hmem
    · exact hle s' hmem hs'
    · rw [List.mem_singleton.1 hmem]
      exact UInt64.le_refl _
  last j s' hj _ := by
    have hlt : j < (symbols ++ [s]).length := (List.getElem?_eq_some_iff.1 hj).1
    rw [List.length_append, List.length_singleton] at hlt
    omega

/-- The nearest symbol stays the nearest if the new one lies lower or does not reach the address. -/
theorem Nearest.concat (h : Nearest ⟨symbols⟩ addr i b) (hlower : s.Reaches addr → s.addr < b.addr) :
    Nearest ⟨symbols ++ [s]⟩ addr i b where
  entry := List.getElem?_append_left (List.getElem?_eq_some_iff.1 h.entry).1 ▸ h.entry
  reaches := h.reaches
  greatest s' hmem hs' := by
    rcases List.mem_append.1 hmem with hmem | hmem
    · exact h.greatest s' hmem hs'
    · rw [List.mem_singleton.1 hmem] at hs' ⊢
      exact UInt64.le_of_lt (hlower hs')
  last j s' hj haddr := by
    rw [List.getElem?_append] at hj
    split at hj
    · exact h.last j s' hj haddr
    · -- The new symbol would lie where the nearest one does, not lower.
      obtain rfl : s' = s := by simpa using List.mem_of_getElem? hj
      have hlt := hlower (by rw [KernelSymbol.Reaches, haddr]; exact h.reaches)
      rw [haddr] at hlt
      exact absurd hlt (UInt64.lt_irrefl _)

/-- The search keeps to what is to be found when it comes to one more symbol. -/
theorem Finds.concat (h : Finds ⟨symbols⟩ addr best) :
    Finds ⟨symbols ++ [s]⟩ addr (if s.Reaches addr then nearer best s else best) := by
  split
  case isTrue hreaches =>
    cases best with
    | none => exact ⟨_, nearest_concat hreaches fun s' hmem hs' => absurd hs' (h s' hmem)⟩
    | some b =>
      obtain ⟨i, hb⟩ := h
      rw [nearer]
      split
      case isTrue hlt => exact ⟨i, hb.concat fun _ => hlt⟩
      case isFalse hge =>
        exact ⟨_, nearest_concat hreaches fun s' hmem hs' =>
          UInt64.le_trans (hb.greatest s' hmem hs') (UInt64.not_lt.1 hge)⟩
  case isFalse hreaches =>
    cases best with
    | none =>
      intro s' hmem
      rcases List.mem_append.1 hmem with hmem | hmem
      · exact h s' hmem
      · rwa [List.mem_singleton.1 hmem]
    | some b =>
      obtain ⟨i, hb⟩ := h
      exact ⟨i, hb.concat fun hs => absurd hs hreaches⟩

theorem resolveAddress_eq (t : SymbolTable) (addr : UInt64) :
    t.resolveAddress addr = (t.symbols.filter fun s => s.Reaches addr).foldl nearer none := by
  have hreaches : ∀ s ∈ t.symbols, (s.addr != 0 && decide (s.addr ≤ addr)) = decide (s.Reaches addr) := by
    intro s _
    rw [Bool.eq_iff_iff, decide_eq_true_iff, Bool.and_eq_true_iff, bne_iff_ne, decide_eq_true_iff,
      KernelSymbol.Reaches]
  rw [resolveAddress, List.filter_congr hreaches]

theorem resolveAddress_concat : resolveAddress ⟨symbols ++ [s]⟩ addr =
    if s.Reaches addr then nearer (resolveAddress ⟨symbols⟩ addr) s else resolveAddress ⟨symbols⟩ addr := by
  rw [resolveAddress_eq, resolveAddress_eq, List.filter_append, List.foldl_append, List.filter_cons]
  by_cases h : s.Reaches addr <;> simp [h]

/-! ### The whole list -/

/-- By induction from the end of the list: what is found among the symbols so far is what the search
compares the next one with. -/
theorem finds_resolveAddress (t : SymbolTable) (addr : UInt64) : t.Finds addr (t.resolveAddress addr) := by
  obtain ⟨symbols⟩ := t
  induction symbols using List.reverseRecOn with
  | nil => exact fun s hmem => absurd hmem List.not_mem_nil
  | append_singleton symbols s ih =>
    rw [resolveAddress_concat]
    exact ih.concat

theorem Nearest.unique (h : t.Nearest addr i s) (h' : t.Nearest addr j b) : s = b := by
  have haddr : s.addr = b.addr :=
    UInt64.le_antisymm (h'.greatest s (List.mem_of_getElem? h.entry) h.reaches)
      (h.greatest b (List.mem_of_getElem? h'.entry) h'.reaches)
  have hij : i = j := Nat.le_antisymm (h'.last i s h.entry haddr) (h.last j b h'.entry haddr.symm)
  exact Option.some.inj (h.entry.symm.trans (hij ▸ h'.entry))

theorem Finds.unique (h : t.Finds addr best) (h' : t.Finds addr best') : best = best' := by
  match best, best', h, h' with
  | none, none, _, _ => rfl
  | none, some b, hnone, ⟨_, hb⟩ => exact absurd hb.reaches (hnone b (List.mem_of_getElem? hb.entry))
  | some s, none, ⟨_, hs⟩, hnone => exact absurd hs.reaches (hnone s (List.mem_of_getElem? hs.entry))
  | some s, some b, ⟨_, hs⟩, ⟨_, hb⟩ => rw [hs.unique hb]

/-- A search by address gives what is to be found, and nothing else is. -/
theorem resolveAddress_eq_iff : t.resolveAddress addr = best ↔ t.Finds addr best :=
  ⟨fun h => h ▸ finds_resolveAddress t addr, (finds_resolveAddress t addr).unique⟩

theorem resolveAddress_cases (t : SymbolTable) (addr : UInt64) :
    (t.resolveAddress addr = none ∧ ∀ s ∈ t.symbols, ¬ s.Reaches addr) ∨
      ∃ s i, t.resolveAddress addr = some s ∧ t.Nearest addr i s := by
  have hfinds := finds_resolveAddress t addr
  cases hfound : t.resolveAddress addr with
  | none =>
    rw [hfound] at hfinds
    exact .inl ⟨rfl, hfinds⟩
  | some s =>
    rw [hfound] at hfinds
    obtain ⟨i, hnearest⟩ := hfinds
    exact .inr ⟨s, i, rfl, hnearest⟩

/-- At the address of a function that is there, a function at this very address is found. -/
theorem exists_resolveAddress (hmem : s ∈ t.symbols) (hne : s.addr ≠ 0) :
    ∃ s', t.resolveAddress s.addr = some s' ∧ s'.addr = s.addr := by
  have hs : s.Reaches s.addr := ⟨hne, UInt64.le_refl _⟩
  rcases t.resolveAddress_cases s.addr with ⟨_, hunreached⟩ | ⟨s', i, hfound, hnearest⟩
  · exact absurd hs (hunreached s hmem)
  · exact ⟨s', hfound, UInt64.le_antisymm hnearest.reaches.2 (hnearest.greatest s hmem hs)⟩

theorem findFunction_eq_some_iff : t.findFunction name = some addr ↔
    ∃ s, t.symbols.find? (·.name == name) = some s ∧ s.addr = addr ∧ addr ≠ 0 := by
  rw [findFunction, Option.filter_eq_some_iff, Option.map_eq_some_iff, bne_iff_ne, ← exists_and_right]
  simp only [and_assoc]

end SymbolTable

namespace Interrupt

variable {σ ε : Type}

/-- The notice tells where an instruction is: how far into the nearest function at or below it, or that
there is none such. -/
inductive Locates (t : SymbolTable) (rip : UInt64) : Console.Notice → Prop
  | inside {i : Nat} {s : KernelSymbol} {offset : UInt64} (nearest : t.Nearest rip i s)
      (distance : s.addr.toNat + offset.toNat = rip.toNat) :
      Locates t rip (.inside rip s.name offset s.file s.line)
  | outside (unreached : ∀ s ∈ t.symbols, ¬ s.Reaches rip) : Locates t rip (.outside rip)

/-- A report comes to an end and changes nothing: the distance to the nearest function is a word. -/
theorem exists_reportLocation (scene : Scene) (rip : UInt64) (m : σ) :
    ∃ notice, Locates scene.symbols rip notice ∧ (reportLocation scene rip : Action σ ε Unit) m =
      { outcome := .ok (), state := m, output := [.log (.running scene.running), .log notice] } := by
  rcases scene.symbols.resolveAddress_cases rip with ⟨hnone, hunreached⟩ | ⟨s, i, hfound, hnearest⟩
  · refine ⟨.outside rip, .outside hunreached, ?_⟩
    rw [reportLocation, hnone]
    rfl
  · have hle := UInt64.le_iff_toNat_le.1 hnearest.reaches.2
    have hoffset : Word.sub? rip s.addr = some (rip - s.addr) := if_pos hle
    have hdistance := Word.toNat_sub? hoffset
    refine ⟨.inside rip s.name (rip - s.addr) s.file s.line, .inside hnearest (by omega), ?_⟩
    rw [reportLocation, hfound]
    simp only [hoffset]
    rfl

/-- What attributing addresses to the functions of a table comes to. -/
structure Attributed (t : SymbolTable) : Prop where
  none_iff : ∀ addr, t.resolveAddress addr = none ↔ ∀ s ∈ t.symbols, ¬ s.Reaches addr
  some_iff : ∀ addr s, t.resolveAddress addr = some s ↔ ∃ i, t.Nearest addr i s
  /-- The search by address agrees with the one by name. -/
  found : ∀ name addr, t.findFunction name = some addr → ∃ s, t.resolveAddress addr = some s ∧ s.addr = addr
  /-- A report tells the function that its address is attributed to, and the kernel does not give up over
  it. -/
  reported : ∀ {σ ε : Type} (scene : Scene) (rip : UInt64) (m : σ), scene.symbols = t →
    ∃ notice, Locates t rip notice ∧ (reportLocation scene rip : Action σ ε Unit) m =
      { outcome := .ok (), state := m, output := [.log (.running scene.running), .log notice] }

/-- Addresses are attributed to the nearest function at or below them. -/
theorem attributes_nearest (t : SymbolTable) : Attributed t where
  none_iff _ := SymbolTable.resolveAddress_eq_iff
  some_iff _ _ := SymbolTable.resolveAddress_eq_iff
  found name addr h := by
    obtain ⟨s, hfind, rfl, hne⟩ := SymbolTable.findFunction_eq_some_iff.1 h
    exact SymbolTable.exists_resolveAddress (List.mem_of_find?_eq_some hfind) hne
  reported scene rip m h := h ▸ exists_reportLocation scene rip m

/-- By name the first of two symbols counts and by address the last; a symbol at address zero never does. -/
example :
    let t : SymbolTable := { symbols := [⟨"print", 0x2000, "console", 1⟩, ⟨"gone", 0, "console", 2⟩,
      ⟨"print", 0x3000, "console", 3⟩, ⟨"write", 0x2000, "console", 4⟩, ⟨"start", 0x1000, "main", 1⟩] }
    t.findFunction "print" = some 0x2000 ∧ t.resolveAddress 0x2000 = some ⟨"write", 0x2000, "console", 4⟩ ∧
      t.findFunction "gone" = none ∧ t.resolveAddress 0xfff = none := by decide

end Interrupt

end EnvKernel
