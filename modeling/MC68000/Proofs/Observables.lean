import MC68000.Machine.Inspect

set_option autoImplicit false

namespace MC68000

namespace Text

/-- What may stand in front of a numeral without changing its number: a plus sign, and zeros. -/
def IsPadding (cs : List Char) : Prop :=
  ∃ sign zeros, (sign = [] ∨ sign = ['+']) ∧ cs = sign ++ List.replicate zeros '0'

variable {c : Char} {cs : List Char} {k n : Nat}

theorem isDigit_iff : c.isDigit = true ↔ 48 ≤ c.toNat ∧ c.toNat ≤ 57 := Char.isDigit_iff_toNat

theorem digitChar_of_isDigit (digit : c.isDigit = true) : Nat.digitChar (c.toNat - 48) = c := by
  obtain ⟨low, high⟩ := isDigit_iff.mp digit
  apply Char.toNat_inj.mp
  rw [Nat.toNat_digitChar_of_lt_ten (by omega)]
  omega

theorem toDigits_of_isDigit (digit : c.isDigit = true) : Nat.toDigits 10 (c.toNat - 48) = [c] := by
  have bounds := isDigit_iff.mp digit
  rw [Nat.toDigits_of_lt_base (by omega), digitChar_of_isDigit digit]

theorem digitsFrom?_append (k : Nat) (cs ds : List Char) :
    digitsFrom? k (cs ++ ds) = (digitsFrom? k cs).bind (digitsFrom? · ds) := by
  induction cs generalizing k with
  | nil => rfl
  | cons c rest ih =>
    simp only [List.cons_append, digitsFrom?, ih]
    split <;> rfl

theorem digitsFrom?_digitChar (k : Nat) {d : Nat} (small : d < 10) :
    digitsFrom? k [Nat.digitChar d] = some (10 * k + d) := by
  have place := Nat.toNat_digitChar_of_lt_ten small
  have digit : (Nat.digitChar d).isDigit = true := isDigit_iff.mpr (by omega)
  simp only [digitsFrom?, digit, if_true, place]
  congr 1
  omega

theorem digitsFrom?_toDigits (n : Nat) : digitsFrom? 0 (Nat.toDigits 10 n) = some n := by
  induction n using Nat.strongRecOn with
  | ind n ih =>
    by_cases small : n < 10
    · rw [Nat.toDigits_of_lt_base small, digitsFrom?_digitChar 0 small, Nat.mul_zero, Nat.zero_add]
    · have last : n % 10 < 10 := Nat.mod_lt n (by decide)
      have split := Nat.toDigits_append_toDigits (by decide) (show 0 < n / 10 by omega) last
      rw [Nat.div_add_mod, Nat.toDigits_of_lt_base last] at split
      rw [← split, digitsFrom?_append, ih (n / 10) (by omega), Option.bind_some,
        digitsFrom?_digitChar _ last, Nat.div_add_mod]

/-- Digits after a number other than zero continue its numeral. -/
theorem toDigits_of_digitsFrom? (positive : 0 < k) (read : digitsFrom? k cs = some n) :
    Nat.toDigits 10 k ++ cs = Nat.toDigits 10 n := by
  induction cs generalizing k with
  | nil =>
    cases read
    exact List.append_nil _
  | cons c rest ih =>
    unfold digitsFrom? at read
    split at read
    case isFalse => cases read
    case isTrue digit =>
      have bounds := isDigit_iff.mp digit
      have longer : Nat.toDigits 10 k ++ Nat.toDigits 10 (c.toNat - 48) =
          Nat.toDigits 10 (10 * k + (c.toNat - 48)) :=
        Nat.toDigits_append_toDigits (by decide) positive (by omega)
      rw [toDigits_of_isDigit digit] at longer
      rw [← ih (by omega) read, ← longer, List.append_assoc, List.singleton_append]

theorem digitsFrom?_zeros (zeros : Nat) (cs : List Char) :
    digitsFrom? 0 (List.replicate zeros '0' ++ cs) = digitsFrom? 0 cs := by
  induction zeros with
  | zero => rfl
  | succ zeros ih => exact ih

/-- A run of digits is the numeral of its number after some zeros. -/
theorem digitsFrom?_eq_some_iff (run : cs ≠ []) : digitsFrom? 0 cs = some n ↔
    ∃ zeros, cs = List.replicate zeros '0' ++ Nat.toDigits 10 n := by
  constructor
  · intro read
    induction cs with
    | nil => exact absurd rfl run
    | cons c rest ih =>
      unfold digitsFrom? at read
      split at read
      case isFalse => cases read
      case isTrue digit =>
        rw [Nat.mul_zero, Nat.zero_add] at read
        have numeral := toDigits_of_isDigit digit
        by_cases leading : 0 < c.toNat - 48
        · refine ⟨0, ?_⟩
          rw [← toDigits_of_digitsFrom? leading read, numeral]
          rfl
        · rw [Nat.eq_zero_of_not_pos leading] at read numeral
          have zero : c = '0' := (List.cons.inj numeral).1.symm
          by_cases more : rest = []
          · subst more
            cases read
            exact ⟨0, numeral.symm⟩
          · obtain ⟨zeros, rest⟩ := ih more read
            exact ⟨zeros + 1, by rw [zero, rest]; rfl⟩
  · rintro ⟨zeros, rfl⟩
    rw [digitsFrom?_zeros, digitsFrom?_toDigits]

theorem digits?_eq_some_iff : digits? cs = some n ↔
    n < 0x10000000000000000 ∧ ∃ zeros, cs = List.replicate zeros '0' ++ Nat.toDigits 10 n := by
  cases cs with
  | nil => simp [digits?, Nat.toDigits_ne_nil]
  | cons c rest =>
    have run := digitsFrom?_eq_some_iff (n := n) (List.cons_ne_nil c rest)
    simp only [digits?, Option.filter_eq_some_iff, decide_eq_true_eq, run]
    exact And.comm

theorem digits?_plus (cs : List Char) : digits? ('+' :: cs) = none := rfl

/-- An index is the numeral of its number, after padding. -/
theorem index?_eq_some_iff : index? cs = some n ↔
    n < 0x10000000000000000 ∧ ∃ padding, IsPadding padding ∧ cs = padding ++ Nat.toDigits 10 n := by
  constructor
  · intro read
    unfold index? at read
    split at read
    next rest =>
      obtain ⟨small, zeros, rfl⟩ := digits?_eq_some_iff.mp read
      exact ⟨small, ['+'] ++ List.replicate zeros '0', ⟨['+'], zeros, .inr rfl, rfl⟩, rfl⟩
    next =>
      obtain ⟨small, zeros, same⟩ := digits?_eq_some_iff.mp read
      exact ⟨small, List.replicate zeros '0', ⟨[], zeros, .inl rfl, rfl⟩, same⟩
  · rintro ⟨small, _, ⟨sign, zeros, rfl | rfl, rfl⟩, rfl⟩
    · have read : digits? (List.replicate zeros '0' ++ Nat.toDigits 10 n) = some n :=
        digits?_eq_some_iff.mpr ⟨small, zeros, rfl⟩
      rw [List.nil_append]
      unfold index?
      split
      next rest signed =>
        rw [signed, digits?_plus] at read
        cases read
      next => exact read
    · exact digits?_eq_some_iff.mpr ⟨small, zeros, rfl⟩

end Text

namespace Observable

def paths : List String := all.map path

def IsRegister (o : Observable) : Prop := o ∉ named

instance (o : Observable) : Decidable o.IsRegister := inferInstanceAs (Decidable (_ ∉ _))

/-- The path of an observable with something inserted after its first letter. -/
def padded (o : Observable) (padding : List Char) : String :=
  .ofList (o.path.toList.take 1 ++ padding ++ o.path.toList.drop 1)

theorem mem_all (o : Observable) : o ∈ all := by
  cases o with
  | data n => simp [all]
  | address n => simp [all]
  | _ => decide

theorem path_mem (o : Observable) : o.path ∈ paths := List.mem_map_of_mem o.mem_all

theorem nodup_paths : paths.Nodup := by decide

theorem path_data (n : Fin 8) : (data n).path.toList = 'd' :: Nat.toDigits 10 n := by
  decide +revert

theorem path_address (n : Fin 8) : (address n).path.toList = 'a' :: Nat.toDigits 10 n := by
  decide +revert

theorem padded_data (n : Fin 8) (padding : List Char) :
    ((data n).padded padding).toList = 'd' :: (padding ++ Nat.toDigits 10 n) := by
  rw [padded, path_data, String.toList_ofList]
  rfl

theorem padded_address (n : Fin 8) (padding : List Char) :
    ((address n).padded padding).toList = 'a' :: (padding ++ Nat.toDigits 10 n) := by
  rw [padded, path_address, String.toList_ofList]
  rfl

theorem padded_nil (o : Observable) : o.padded [] = o.path := by
  rw [padded, List.append_nil, List.take_append_drop, String.ofList_toList]

theorem register?_eq_some_iff {file : Fin 8 → Observable} {digits : List Char} {o : Observable} :
    ofPath?.register? file digits = some o ↔
      ∃ n, o = file n ∧ ∃ padding, Text.IsPadding padding ∧ digits = padding ++ Nat.toDigits 10 n := by
  constructor
  · intro found
    unfold ofPath?.register? at found
    split at found
    case h_2 => cases found
    case h_1 n read =>
      split at found
      case isFalse => cases found
      case isTrue inside =>
        cases found
        exact ⟨⟨n, inside⟩, rfl, (Text.index?_eq_some_iff.mp read).2⟩
  · rintro ⟨n, rfl, spelled⟩
    have inside := n.isLt
    have read : Text.index? digits = some n.val := Text.index?_eq_some_iff.mpr ⟨by omega, spelled⟩
    unfold ofPath?.register?
    rw [read]
    exact dif_pos inside

/-- A path leads to the observable that it names. -/
theorem ofPath?_path (o : Observable) : ofPath? o.path = some o := by
  cases o with
  | data n => decide +revert
  | address n => decide +revert
  | _ => decide

theorem ofPath?_padded {o : Observable} (register : o.IsRegister) {padding : List Char}
    (pads : Text.IsPadding padding) : ofPath? (o.padded padding) = some o := by
  unfold ofPath?
  cases o with
  | data n =>
    rw [padded_data]
    exact register?_eq_some_iff.mpr ⟨n, rfl, padding, pads, rfl⟩
  | address n =>
    rw [padded_address]
    exact register?_eq_some_iff.mpr ⟨n, rfl, padding, pads, rfl⟩
  | _ => exact absurd (by decide) register

/-- No other path leads anywhere. -/
theorem ofPath?_cases {path : String} {o : Observable} (found : ofPath? path = some o) :
    path = o.path ∨ o.IsRegister ∧ ∃ padding, Text.IsPadding padding ∧ path = o.padded padding := by
  unfold ofPath? at found
  split at found
  case h_1 digits spelled =>
    obtain ⟨n, rfl, padding, pads, rfl⟩ := register?_eq_some_iff.mp found
    refine .inr ⟨by simp [IsRegister, named], padding, pads, String.toList_inj.mp ?_⟩
    rw [spelled, padded_data]
  case h_2 digits spelled =>
    obtain ⟨n, rfl, padding, pads, rfl⟩ := register?_eq_some_iff.mp found
    refine .inr ⟨by simp [IsRegister, named], padding, pads, String.toList_inj.mp ?_⟩
    rw [spelled, padded_address]
  case h_3 =>
    have same := List.find?_some found
    exact .inl (decide_eq_true_eq.mp same).symm

end Observable

namespace Observation

/-- The keys of a map stand in ascending order, each once. -/
def Sorted (entries : List (String × Observation)) : Prop :=
  entries.Pairwise fun first second => first.1 < second.1

variable {entries : List (String × Observation)} {entry : String × Observation} {key : String}
  {value : Observation}

/-- What is put under a key takes the place of what the key had, and no other entry is lost. -/
theorem mem_insert (sorted : Sorted entries) : entry ∈ insert key value entries ↔
    entry = (key, value) ∨ entry ∈ entries ∧ entry.1 ≠ key := by
  induction entries with
  | nil => simp [insert]
  | cons first rest ih =>
    obtain ⟨above, sorted⟩ := List.pairwise_cons.mp sorted
    have other {e : String × Observation} (member : e ∈ rest) : first.1 ≠ e.1 :=
      fun same => String.lt_irrefl e.1 (same ▸ above e member)
    unfold insert
    by_cases before : key < first.1
    · have kept {e : String × Observation} (member : e ∈ first :: rest) : e.1 ≠ key := by
        rintro rfl
        rcases List.mem_cons.mp member with rfl | later
        · exact String.lt_irrefl _ before
        · exact String.lt_irrefl _ (String.lt_trans before (above e later))
      rw [if_pos before, List.mem_cons]
      exact or_congr_right ⟨fun member => ⟨member, kept member⟩, And.left⟩
    · rw [if_neg before]
      by_cases same : key = first.1
      · subst same
        rw [if_pos rfl, List.mem_cons]
        refine or_congr_right ⟨fun later => ⟨List.mem_cons_of_mem _ later, (other later).symm⟩, ?_⟩
        rintro ⟨member, ne⟩
        rcases List.mem_cons.mp member with rfl | later
        · exact absurd rfl ne
        · exact later
      · rw [if_neg same, List.mem_cons, List.mem_cons, ih sorted]
        constructor
        · rintro (rfl | rfl | ⟨later, ne⟩)
          · exact .inr ⟨.inl rfl, Ne.symm same⟩
          · exact .inl rfl
          · exact .inr ⟨.inr later, ne⟩
        · rintro (rfl | ⟨rfl | later, ne⟩)
          · exact .inr (.inl rfl)
          · exact .inl rfl
          · exact .inr (.inr ⟨later, ne⟩)

theorem sorted_insert (sorted : Sorted entries) : Sorted (insert key value entries) := by
  induction entries with
  | nil => exact List.pairwise_singleton _ _
  | cons first rest ih =>
    obtain ⟨above, tail⟩ := List.pairwise_cons.mp sorted
    unfold insert
    by_cases before : key < first.1
    · rw [if_pos before]
      refine List.pairwise_cons.mpr ⟨fun e member => ?_, sorted⟩
      rcases List.mem_cons.mp member with rfl | later
      · exact before
      · exact String.lt_trans before (above e later)
    · rw [if_neg before]
      by_cases same : key = first.1
      · subst same
        rw [if_pos rfl]
        exact List.pairwise_cons.mpr ⟨above, tail⟩
      · have after : first.1 < key :=
          Decidable.byContradiction fun not =>
            same (String.le_antisymm (String.not_lt.mp not) (String.not_lt.mp before))
        rw [if_neg same]
        refine List.pairwise_cons.mpr ⟨fun e member => ?_, ih tail⟩
        rcases (mem_insert tail).mp member with rfl | ⟨later, _⟩
        · exact after
        · exact above e later

/-- Entries with different keys all come into the map, and so do those that were there under other keys. -/
theorem foldl_insert {list map : List (String × Observation)} (distinct : (list.map Prod.fst).Nodup)
    (sorted : Sorted map) :
    let filled := list.foldl (fun map entry => insert entry.1 entry.2 map) map
    Sorted filled ∧ ∀ entry, entry ∈ filled ↔
      entry ∈ list ∨ entry ∈ map ∧ entry.1 ∉ list.map Prod.fst := by
  induction list generalizing map with
  | nil => simpa using sorted
  | cons first rest ih =>
    obtain ⟨fresh, distinct⟩ := List.nodup_cons.mp distinct
    have inserted : Sorted (insert first.1 first.2 map) := sorted_insert sorted
    obtain ⟨filled, members⟩ := ih distinct inserted
    refine ⟨filled, fun entry => (members entry).trans ?_⟩
    rw [mem_insert sorted, List.mem_cons, List.map_cons, List.mem_cons, not_or]
    constructor
    · rintro (later | ⟨rfl | ⟨before, ne⟩, apart⟩)
      · exact .inl (.inr later)
      · exact .inl (.inl rfl)
      · exact .inr ⟨before, ne, apart⟩
    · rintro ((rfl | later) | ⟨before, ne, apart⟩)
      · exact .inr ⟨.inl rfl, fresh⟩
      · exact .inl later
      · exact .inr ⟨.inr ⟨before, ne⟩, apart⟩

end Observation

namespace Machine

open Observable

variable {World : Type}

theorem query_path (m : Machine World) (o : Observable) : m.query o.path = some (m.observe o) := by
  rw [query, ofPath?_path, Option.map_some]

theorem query_padded (m : Machine World) {o : Observable} (register : o.IsRegister)
    {padding : List Char} (pads : Text.IsPadding padding) :
    m.query (o.padded padding) = some (m.observe o) := by
  rw [query, ofPath?_padded register pads, Option.map_some]

theorem snapshot_eq (m : Machine World) : ∃ entries, m.snapshot = .map entries ∧
    Observation.Sorted entries ∧
    ∀ entry, entry ∈ entries ↔ ∃ o : Observable, entry = (o.path, m.observe o) := by
  have keys : (all.map fun o => (o.path, m.observe o)).map Prod.fst = paths := List.map_map ..
  obtain ⟨sorted, members⟩ := Observation.foldl_insert (keys ▸ nodup_paths) List.Pairwise.nil
  refine ⟨_, rfl, sorted, fun entry => (members entry).trans ?_⟩
  simp [mem_all, eq_comm]

/-- A machine answers to the published paths and, beyond these, to the paths of registers with padding in
front of the number, at which it gives the values of the registers. Its snapshot holds the published paths
alone, each with the value that a query of it gives. -/
theorem accepted_paths (m : Machine World) :
    (∀ path, (m.query path).isSome = true ↔ path ∈ paths ∨
      ∃ (o : Observable) (padding : List Char), o.IsRegister ∧ Text.IsPadding padding ∧ padding ≠ [] ∧
        path = o.padded padding) ∧
    (∀ (o : Observable) (padding : List Char), o.IsRegister → Text.IsPadding padding →
      m.query (o.padded padding) = m.query o.path) ∧
    ∃ entries, m.snapshot = .map entries ∧ Observation.Sorted entries ∧
      (∀ key, key ∈ entries.map Prod.fst ↔ key ∈ paths) ∧
      ∀ key value, (key, value) ∈ entries → m.query key = some value := by
  refine ⟨fun path => ⟨?accepted, ?answers⟩, ?values, ?snapshot⟩
  case accepted =>
    intro answered
    rw [query, Option.isSome_map, Option.isSome_iff_exists] at answered
    obtain ⟨o, found⟩ := answered
    rcases ofPath?_cases found with rfl | ⟨register, padding, pads, rfl⟩
    · exact .inl o.path_mem
    · by_cases none : padding = []
      · rw [none, padded_nil]
        exact .inl o.path_mem
      · exact .inr ⟨o, padding, register, pads, none, rfl⟩
  case answers =>
    rintro (published | ⟨o, padding, register, pads, -, rfl⟩)
    · obtain ⟨o, -, rfl⟩ := List.mem_map.mp published
      rw [query_path, Option.isSome_some]
    · rw [m.query_padded register pads, Option.isSome_some]
  case values =>
    intro o padding register pads
    rw [m.query_padded register pads, query_path]
  case snapshot =>
    obtain ⟨entries, same, sorted, members⟩ := m.snapshot_eq
    refine ⟨entries, same, sorted, fun key => ?_, fun key value member => ?_⟩
    · simp only [List.mem_map, members, paths]
      constructor
      · rintro ⟨_, ⟨o, rfl⟩, rfl⟩
        exact ⟨o, o.mem_all, rfl⟩
      · rintro ⟨o, -, rfl⟩
        exact ⟨_, ⟨o, rfl⟩, rfl⟩
    · obtain ⟨o, same⟩ := (members _).mp member
      cases same
      exact m.query_path o

def bare : Machine Unit := new .standard ⟨#[], .none, ()⟩ fun _ world => world

theorem accepted_paths_zeros :
    (data 7).IsRegister ∧ Text.IsPadding ['0', '0'] ∧ bare.query "d007" = bare.query "d7" := by
  have register : (data 7).IsRegister := by decide
  have pads : Text.IsPadding ['0', '0'] := ⟨[], 2, .inl rfl, rfl⟩
  exact ⟨register, pads, (accepted_paths bare).2.1 (data 7) ['0', '0'] register pads⟩

/-- The path of D3 with a plus sign is not published, and it is answered. -/
theorem signed_path_accepted : (bare.query "d+3").isSome = true ∧ "d+3" ∉ paths := by
  decide

end Machine

end MC68000
