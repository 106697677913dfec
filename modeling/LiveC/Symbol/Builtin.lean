import LiveC.Bridge.Convention
import LiveC.Log
/-!
# Builtin routines

The routines of the host that compiled code can call by name without any library. A
`BuiltinTable` keeps the first entry of every name; an entry without an address is a placeholder,
which is known but never offered. `builtins` is the table in use.
-/

namespace LiveC

/-- A routine of the host. -/
structure Builtin where
  name : String
  /-- Its declaration in C. -/
  prototype : String
  convention : Convention
  /-- Its address; zero for a placeholder. -/
  address : Address
  deriving DecidableEq, Repr

/-- Whether there is nothing behind the name. -/
def Builtin.isPlaceholder (b : Builtin) : Bool := b.address = 0

/-- Routines by name, each name once. -/
structure BuiltinTable where
  entries : List Builtin
  deriving DecidableEq, Repr

namespace BuiltinTable

/-- The entry of a name. -/
def get? (t : BuiltinTable) (name : String) : Option Builtin := t.entries.find? (·.name == name)

/-- Add an entry, unless its name is there; all are in the native convention. -/
def add (t : BuiltinTable) (b : Builtin) : BuiltinTable :=
  if (t.get? b.name).isSome then t else ⟨t.entries ++ [{ b with convention := .native }]⟩

/-- The table of some entries: the first of every name. -/
def ofList (entries : List Builtin) : BuiltinTable := entries.foldl add ⟨[]⟩

/-- The address of a name that is no placeholder. -/
def address? (t : BuiltinTable) (name : String) : Option Address :=
  ((t.get? name).filter (!·.isPlaceholder)).map (·.address)

/-- The first name of the routine at an address. -/
def nameAt? (t : BuiltinTable) (address : Address) : Option String :=
  (t.entries.find? fun b => !b.isPlaceholder && b.address == address).map (·.name)

/-- The entries that are offered to compiled code. -/
def offered (t : BuiltinTable) : List Builtin := t.entries.filter (!·.isPlaceholder)

/-- The names, in order. -/
def names (t : BuiltinTable) : List String := t.entries.map (·.name)

end BuiltinTable

/-- An entry before it is in a table. -/
def Builtin.make (name prototype : String) (address : Address) : Builtin :=
  ⟨name, prototype, .other, address⟩

/-- Where the routines lie. -/
def builtinBase : Address := 0x08000000

/-- The address of the routine at a place in the table. -/
def builtinAddress (place : Nat) : Address := builtinBase + 16 * UInt64.ofNat place

/-- The names and declarations of the routines, with the place of the routine that is behind each:
input and output, memory, strings, mathematics, files, modules, libraries, and the system. The
longer names for the routines on libraries stand for the same routines. -/
def builtinList : List (String × String × Nat) :=
  [("printf", "int printf(const char*, ...)", 0),
    ("exit", "void exit(int)", 1),
    ("abort", "void abort(void)", 2),
    ("malloc", "void* malloc(size_t)", 3),
    ("calloc", "void* calloc(size_t, size_t)", 4),
    ("realloc", "void* realloc(void*, size_t)", 5),
    ("free", "void free(void*)", 6),
    ("strlen", "size_t strlen(const char*)", 7),
    ("strcmp", "int strcmp(const char*, const char*)", 8),
    ("strncmp", "int strncmp(const char*, const char*, size_t)", 9),
    ("memcpy", "void* memcpy(void*, const void*, size_t)", 10),
    ("memset", "void* memset(void*, int, size_t)", 11),
    ("memmove", "void* memmove(void*, const void*, size_t)", 12),
    ("abs", "int abs(int)", 13),
    ("labs", "long labs(long)", 14),
    ("sin", "double sin(double)", 15),
    ("cos", "double cos(double)", 16),
    ("sqrt", "double sqrt(double)", 17),
    ("fopen", "FILE* fopen(const char*, const char*)", 18),
    ("fclose", "int fclose(FILE*)", 19),
    ("fread", "size_t fread(void*, size_t, size_t, FILE*)", 20),
    ("fwrite", "size_t fwrite(const void*, size_t, size_t, FILE*)", 21),
    ("fseek", "int fseek(FILE*, long, int)", 22),
    ("ftell", "long ftell(FILE*)", 23),
    ("fgets", "char* fgets(char*, int, FILE*)", 24),
    ("fputs", "int fputs(const char*, FILE*)", 25),
    ("fflush", "int fflush(FILE*)", 26),
    ("__import", "void* __import(const char*)", 27),
    ("__sym", "void* __sym(void*, const char*)", 28),
    ("__import_free", "void __import_free(void*)", 29),
    ("dlopen", "void* dlopen(const char*, int)", 30),
    ("dlsym", "void* dlsym(void*, const char*)", 31),
    ("dlclose", "int dlclose(void*)", 32),
    ("dlerror", "char* dlerror(void)", 33),
    ("cosmo_dlopen", "void* cosmo_dlopen(const char*, int)", 30),
    ("cosmo_dlsym", "void* cosmo_dlsym(void*, const char*)", 31),
    ("cosmo_dlclose", "int cosmo_dlclose(void*)", 32),
    ("cosmo_dlerror", "char* cosmo_dlerror(void)", 33),
    ("open", "int open(const char*, int, ...)", 34),
    ("read", "ssize_t read(int, void*, size_t)", 35),
    ("write", "ssize_t write(int, const void*, size_t)", 36),
    ("close", "int close(int)", 37),
    ("unlink", "int unlink(const char*)", 38),
    ("access", "int access(const char*, int)", 39),
    ("fork", "pid_t fork(void)", 40),
    ("waitpid", "pid_t waitpid(pid_t, int*, int)", 41),
    ("_exit", "void _exit(int)", 42),
    ("execve", "int execve(const char*, char* const*, char* const*)", 43)]

/-- The table of the host's routines. -/
def builtins : BuiltinTable :=
  .ofList (builtinList.map fun (name, prototype, place) =>
    .make name prototype (builtinAddress place))

/-- The warning about a routine that the compiler did not take. -/
def unregisteredBuiltin (name reason : String) : Warning :=
  ⟨"ccrun_compiler::symbols", "builtin '" ++ name ++ "' not registered: " ++ reason⟩

end LiveC
