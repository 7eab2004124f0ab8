import AgenticSecurity.Library.Runs

namespace AgenticSecurity.Library.Sql

variable {σ ρ α β : Type*} {ε : Type*}

inductive Refusal
  | check (table : String)
  | unique (columns : String)
  | foreignKey
  deriving DecidableEq, Repr

/-- One table of a database with its constraints. The unique indexes come with the columns that
name them; a foreign key is looked up once the row is in the table, which it may refer to. -/
structure Table (σ ρ : Type*) where
  name : String
  rows : σ → List ρ
  put : List ρ → σ → σ
  check : ρ → Bool := fun _ ↦ true
  uniques : List (String × (ρ → ρ → Bool))
  references : ρ → σ → Bool := fun _ _ ↦ true
  rows_put : ∀ rs s, rows (put rs s) = rs := by intros; rfl
  put_put : ∀ rs rs' s, put rs (put rs' s) = put rs s := by intros; rfl
  put_rows : ∀ s, put (rows s) s = s := by intros; rfl

/-- `INSERT INTO`. -/
def Table.insert (table : Table σ ρ) (s : σ) (row : ρ) : Except Refusal σ :=
  if ¬ table.check row then .error (.check table.name)
  else
    match table.uniques.find? fun unique ↦ (table.rows s).any (unique.2 row) with
    | some unique => .error (.unique unique.1)
    | none =>
      let s' := table.put (table.rows s ++ [row]) s
      if table.references row s' then .ok s' else .error .foreignKey

/-- `executemany`. -/
def Table.insertMany (table : Table σ ρ) (s : σ) (rows : List ρ) : Except Refusal σ :=
  rows.foldlM table.insert s

variable {table : Table σ ρ} {s s' : σ}

theorem Table.insert_ok {row : ρ} (h : table.insert s row = .ok s') :
    s' = table.put (table.rows s ++ [row]) s := by
  unfold Table.insert at h
  split_ifs at h
  split at h
  · cases h
  · dsimp only at h
    split_ifs at h
    exact (Except.ok.inj h).symm

theorem foldlM_put {op : σ → α → Except ε σ} (write : α → ρ)
    (hop : ∀ s a s', op s a = .ok s' → s' = table.put (table.rows s ++ [write a]) s)
    {items : List α}
    (h : items.foldlM op s = .ok s') : s' = table.put (table.rows s ++ items.map write) s := by
  induction items generalizing s with
  | nil =>
    obtain rfl := Except.ok.inj h
    rw [List.map_nil, List.append_nil, table.put_rows]
  | cons a items ih =>
    obtain ⟨u, hu, hrest⟩ := Runs.except_bind_ok.mp h
    obtain rfl := hop s a u hu
    rw [ih hrest, table.put_put, table.rows_put, List.map_cons, List.append_assoc]
    rfl

theorem Table.insertMany_ok {rows : List ρ} (h : table.insertMany s rows = .ok s') :
    s' = table.put (table.rows s ++ rows) s := by
  have hall := foldlM_put id (fun _ _ _ hinsert ↦ Table.insert_ok hinsert) h
  rwa [List.map_id] at hall

/-- Every row is validated; the first that fails raises. -/
def readAll (read : ρ → Except ε α) (rows : List ρ) : Except ε (List α) := rows.mapM read

theorem readAll_map {read : ρ → Except ε α} {write : α → ρ} {items : List α}
    (h : ∀ item ∈ items, read (write item) = .ok item) :
    readAll read (items.map write) = .ok items := by
  unfold readAll
  induction items with
  | nil => rfl
  | cons item items ih =>
    rw [List.map_cons, List.mapM_cons, h item List.mem_cons_self,
      ih fun other hother ↦ h other (List.mem_cons_of_mem item hother)]
    rfl

end AgenticSecurity.Library.Sql
