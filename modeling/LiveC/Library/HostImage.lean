import LiveC.Library.Loader
/-!
# The host image

What a usual host process exports: the functions and variables of the C library, and those of the
mathematical library that programs are linked with. `Loader.host` is the loader of such a process
before it opens anything.
-/

namespace LiveC

/-- The functions of the C library that return zero when they are called without arguments, or a
value that nobody can rely on. -/
def libcFunctions : List String :=
  [
    "malloc", "calloc", "realloc", "free", "strncmp", "memcpy", "memset", "memmove", "abs", "labs",
    "fread", "fwrite", "fgets", "fflush", "dlopen", "dlerror", "read", "close", "fork", "putchar",
    "gets", "perror", "tmpfile", "strncpy", "strncat", "strndup", "strnlen", "strerror",
    "strncasecmp", "memchr", "memcmp", "memrchr", "memmem", "bcopy", "bzero", "bcmp", "ffs", "rand",
    "srand", "random", "srandom", "qsort", "bsearch", "llabs", "system", "realpath",
    "aligned_alloc", "isalpha", "isdigit", "isalnum", "isspace", "isupper", "islower", "isxdigit",
    "ispunct", "isprint", "isgraph", "isblank", "toupper", "tolower", "time", "clock", "difftime",
    "asctime", "gettimeofday", "clock_getres", "sleep", "usleep", "alarm", "getpid", "getppid",
    "getuid", "geteuid", "getgid", "getegid", "setuid", "setgid", "getpgrp", "setsid", "kill",
    "raise", "sigprocmask", "pause", "vfork", "dup", "dup2", "lseek", "fchmod", "getcwd", "isatty",
    "ttyname", "fcntl", "select", "poll", "mprotect", "sysconf", "sched_yield", "shutdown", "htons",
    "ntohs", "htonl", "ntohl", "inet_ntop", "freeaddrinfo", "gai_strerror", "pthread_join",
    "pthread_self", "pthread_exit", "setlocale", "localeconv", "__errno_location", "mbtowc",
    "wctomb", "pread", "pwrite", "getrandom", "tmpnam", "tempnam", "open_memstream",
    "putchar_unlocked", "fwrite_unlocked", "fread_unlocked", "ctermid", "cuserid", "strerror_r",
    "strsignal", "strverscmp", "stpncpy", "mempcpy", "memccpy", "swab", "ffsl", "ffsll", "memfrob",
    "explicit_bzero", "l64a", "drand48", "lrand48", "mrand48", "srand48", "initstate", "setstate",
    "arc4random", "arc4random_buf", "arc4random_uniform", "reallocarray", "qsort_r", "on_exit",
    "clearenv", "getloadavg", "ptsname", "posix_openpt", "canonicalize_file_name", "mblen",
    "mbrlen", "mbrtowc", "wcrtomb", "mbsinit", "btowc", "wctob", "valloc", "memalign", "pvalloc",
    "malloc_usable_size", "mallopt", "malloc_trim", "malloc_stats", "brk", "sbrk", "wcsncpy",
    "wcsncat", "wcsncmp", "wmemcpy", "wmemmove", "wmemset", "wmemcmp", "wmemchr", "fgetws",
    "putwchar", "wcwidth", "wcswidth", "iswalpha", "iswdigit", "iswalnum", "iswspace", "iswupper",
    "iswlower", "iswxdigit", "iswpunct", "iswprint", "iswgraph", "iswblank", "towupper", "towlower",
    "iswctype", "towctrans", "toascii", "asctime_r", "tzset", "clock_settime", "clock_nanosleep",
    "timespec_get", "settimeofday", "adjtime", "times", "futimens", "setitimer", "ualarm",
    "getpgid", "setpgid", "setpgrp", "getsid", "gettid", "setreuid", "setregid", "seteuid",
    "setegid", "setresuid", "setresgid", "getgroups", "setgroups", "getlogin", "getlogin_r",
    "getpwuid", "getpwent", "setpwent", "endpwent", "getgrgid", "getpwuid_r", "killpg",
    "sigaltstack", "sigsuspend", "sigwait", "sigwaitinfo", "psignal", "sigblock", "sigsetmask",
    "posix_spawn", "nice", "getpriority", "setpriority", "getrlimit", "setrlimit", "prlimit",
    "readv", "writev", "preadv", "pwritev", "sync", "syncfs", "lockf", "posix_fadvise", "sendfile",
    "fchown", "umask", "getwd", "get_current_dir_name", "fdopendir", "wordfree", "fpathconf",
    "confstr", "getdtablesize", "ttyname_r", "openpty", "forkpty", "login_tty", "epoll_create1",
    "eventfd", "timerfd_create", "inotify_init", "ppoll", "pselect", "msync", "mlock", "munlock",
    "mlockall", "munlockall", "madvise", "mincore", "msgget", "msgctl", "sethostname",
    "getdomainname", "syscall", "personality", "ptrace", "reboot", "get_nprocs", "get_nprocs_conf",
    "sched_getcpu", "sched_getscheduler", "inet_ntoa", "gethostbyaddr", "getservbyport",
    "if_indextoname", "freeifaddrs", "pthread_detach", "pthread_equal", "pthread_sigmask",
    "pthread_attr_setstacksize", "pthread_mutexattr_destroy", "pthread_rwlock_destroy",
    "pthread_key_delete", "pthread_getspecific", "pthread_setspecific", "pthread_barrier_init",
    "pthread_setcancelstate", "pthread_setcanceltype", "pthread_testcancel", "pthread_getname_np",
    "sem_destroy", "thrd_join", "nl_langinfo", "newlocale", "gettext", "dgettext", "dcgettext",
    "ngettext", "textdomain", "bindtextdomain", "backtrace", "backtrace_symbols",
    "backtrace_symbols_fd", "dladdr", "dlmopen", "regexec", "regerror", "hcreate", "hdestroy",
    "tsearch", "tfind", "tdelete", "twalk", "err", "errx", "warn", "warnx", "verr", "verrx",
    "vwarn", "vwarnx", "error", "error_at_line", "dirname", "__xpg_basename", "imaxabs", "ldexp",
    "copysign", "scalbn", "finite", "isnan", "isinf", "ldexpf", "copysignf", "scalbnf",
    "getentropy", "getauxval", "gnu_get_libc_version", "gnu_get_libc_release", "__cxa_atexit",
    "__cxa_finalize", "__assert_fail", "__sprintf_chk", "__snprintf_chk", "__memcpy_chk",
    "__ctype_b_loc", "__ctype_tolower_loc", "__ctype_toupper_loc", "__h_errno_location", "lseek64",
    "pread64", "pwrite64", "tmpfile64", "endmntent", "openlog", "closelog", "setlogmask", "daemon",
    "acct", "gethostid", "sethostid", "vhangup", "ttyslot", "getusershell", "getpass",
    "fgets_unlocked", "fflush_unlocked", "fcloseall", "getutent", "setutent", "endutent"]

/-- The functions of the C library that look behind a pointer which nobody gave. -/
def faultingFunctions : List String :=
  [
    "strlen", "strcmp", "fopen", "fclose", "fseek", "ftell", "fputs", "dlsym", "dlclose", "puts",
    "putc", "getc", "fputc", "fgetc", "ungetc", "fprintf", "sprintf", "snprintf", "vfprintf",
    "vsprintf", "vsnprintf", "fscanf", "sscanf", "dprintf", "rewind", "feof", "ferror", "clearerr",
    "fileno", "fdopen", "freopen", "setbuf", "setvbuf", "popen", "pclose", "getline", "strcpy",
    "strcat", "strchr", "strrchr", "strstr", "strtok", "strtok_r", "strdup", "strspn", "strcspn",
    "strpbrk", "strcoll", "strxfrm", "strcasecmp", "strsep", "stpcpy", "index", "rindex", "atoi",
    "atol", "atoll", "atof", "strtol", "strtoul", "strtoll", "strtoull", "strtod", "strtof",
    "rand_r", "getenv", "putenv", "mkstemp", "mkdtemp", "mktime", "gmtime", "localtime", "ctime",
    "strftime", "clock_gettime", "execvp", "execlp", "opendir", "readdir", "inet_pton",
    "pthread_create", "pthread_mutex_lock", "pthread_mutex_unlock", "pthread_mutex_init",
    "pthread_mutex_destroy", "setjmp", "longjmp", "_setjmp", "wcslen", "mbstowcs", "wcstombs",
    "asprintf", "vasprintf", "vdprintf", "vscanf", "vfscanf", "vsscanf", "fgetpos", "fsetpos",
    "fseeko", "ftello", "getdelim", "getw", "putw", "fmemopen", "setlinebuf", "setbuffer",
    "getc_unlocked", "putc_unlocked", "flockfile", "funlockfile", "ftrylockfile", "feof_unlocked",
    "ferror_unlocked", "fputs_unlocked", "strcasestr", "strchrnul", "strlcpy", "strlcat",
    "rawmemchr", "strfry", "strtold", "strtoimax", "strtoumax", "strtoq", "strtouq", "a64l",
    "erand48", "nrand48", "jrand48", "seed48", "lcong48", "secure_getenv", "mktemp", "mkostemp",
    "mkstemps", "ecvt", "fcvt", "gcvt", "getsubopt", "rpmatch", "mbsrtowcs", "wcsrtombs",
    "mallinfo", "wcscpy", "wcscat", "wcscmp", "wcscoll", "wcsxfrm", "wcschr", "wcsrchr", "wcsstr",
    "wcstok", "wcsspn", "wcscspn", "wcspbrk", "wcsdup", "wcstol", "wcstoul", "wcstoll", "wcstoull",
    "wcstod", "wcstof", "fwprintf", "fwscanf", "swscanf", "fgetwc", "fputwc", "fputws", "getwc",
    "putwc", "ungetwc", "fwide", "wcsftime", "wctype", "wctrans", "gmtime_r", "localtime_r",
    "ctime_r", "strptime", "timegm", "timelocal", "clock_getcpuclockid", "timer_create", "ftime",
    "initgroups", "getpwnam", "getgrnam", "getpwnam_r", "execvpe", "posix_spawnp", "rewinddir",
    "seekdir", "telldir", "scandir", "alphasort", "dirfd", "readdir_r", "globfree", "fnmatch",
    "wordexp", "ftw", "nftw", "fts_open", "fts_read", "fts_close", "fstatvfs", "tcsetattr",
    "cfsetispeed", "cfsetospeed", "cfgetispeed", "cfgetospeed", "cfmakeraw", "shm_open",
    "shm_unlink", "inet_addr", "inet_aton", "inet_network", "gethostbyname", "getservbyname",
    "getprotobyname", "if_nametoindex", "getifaddrs", "pthread_cancel", "pthread_once",
    "pthread_kill", "pthread_attr_init", "pthread_attr_destroy", "pthread_attr_setdetachstate",
    "pthread_attr_getstacksize", "pthread_cond_init", "pthread_cond_destroy", "pthread_cond_wait",
    "pthread_cond_timedwait", "pthread_cond_signal", "pthread_cond_broadcast",
    "pthread_mutex_trylock", "pthread_mutex_timedlock", "pthread_mutexattr_init",
    "pthread_mutexattr_settype", "pthread_rwlock_init", "pthread_rwlock_rdlock",
    "pthread_rwlock_wrlock", "pthread_rwlock_unlock", "pthread_key_create", "pthread_spin_init",
    "pthread_spin_lock", "pthread_spin_unlock", "pthread_barrier_wait", "pthread_setname_np",
    "sem_init", "sem_wait", "sem_trywait", "sem_post", "sem_getvalue", "sem_open", "sem_unlink",
    "mtx_init", "mtx_lock", "mtx_unlock", "thrd_create", "cnd_init", "call_once", "freelocale",
    "duplocale", "iconv_open", "iconv", "iconv_close", "catopen", "catgets", "catclose",
    "siglongjmp", "_longjmp", "__sigsetjmp", "getcontext", "makecontext", "swapcontext", "dlvsym",
    "dl_iterate_phdr", "regcomp", "regfree", "hsearch", "lsearch", "lfind", "insque", "remque",
    "basename", "frexp", "modf", "frexpf", "modff", "__libc_start_main", "__isoc99_sscanf",
    "__isoc99_fscanf", "__fprintf_chk", "__strcpy_chk", "fopen64", "fseeko64", "ftello64",
    "readdir64", "mkstemp64", "getmntent", "setmntent", "syslog", "vsyslog", "fputc_unlocked",
    "fgetc_unlocked", "clearerr_unlocked", "fileno_unlocked", "utmpname"]

/-- The functions of the C library that refuse to do anything without arguments. -/
def refusingFunctions : List String :=
  [
    "printf", "open", "write", "unlink", "access", "waitpid", "execve", "getchar", "vprintf",
    "scanf", "remove", "rename", "setenv", "unsetenv", "nanosleep", "signal", "sigaction",
    "sigemptyset", "sigfillset", "sigaddset", "sigdelset", "wait", "execv", "execl", "pipe",
    "fsync", "ftruncate", "truncate", "stat", "fstat", "lstat", "chmod", "chown", "mkdir", "rmdir",
    "chdir", "link", "symlink", "readlink", "closedir", "ioctl", "mmap", "munmap", "gethostname",
    "uname", "socket", "bind", "listen", "accept", "connect", "send", "recv", "sendto", "recvfrom",
    "getsockopt", "setsockopt", "creat", "getopt", "getopt_long", "getchar_unlocked", "grantpt",
    "unlockpt", "wprintf", "swprintf", "vwprintf", "wscanf", "getwchar", "timer_delete",
    "timer_settime", "timer_gettime", "utime", "utimes", "utimensat", "getitimer", "getresuid",
    "getresgid", "sigpending", "sigtimedwait", "sigqueue", "sigismember", "siginterrupt", "execle",
    "fexecve", "wait3", "wait4", "waitid", "getrusage", "ulimit", "pipe2", "dup3", "fdatasync",
    "flock", "fallocate", "copy_file_range", "openat", "faccessat", "fstatat", "fchmodat",
    "fchownat", "lchown", "mkdirat", "unlinkat", "renameat", "renameat2", "linkat", "symlinkat",
    "readlinkat", "mknod", "mknodat", "mkfifo", "mkfifoat", "fchdir", "chroot", "glob", "statfs",
    "fstatfs", "statvfs", "pathconf", "tcgetattr", "tcflush", "tcdrain", "tcsendbreak", "tcflow",
    "tcgetpgrp", "tcsetpgrp", "epoll_create", "epoll_ctl", "epoll_wait", "signalfd",
    "inotify_add_watch", "mremap", "shmget", "shmat", "shmdt", "shmctl", "semget", "semop",
    "semctl", "msgsnd", "msgrcv", "memfd_create", "prctl", "sysinfo", "sched_getaffinity",
    "sched_setaffinity", "sched_setscheduler", "socketpair", "accept4", "getsockname",
    "getpeername", "sendmsg", "recvmsg", "sendmmsg", "recvmmsg", "sockatmark", "sem_close",
    "uselocale", "setcontext", "dlinfo", "getopt_long_only", "__isoc99_scanf", "__printf_chk",
    "__fxstat", "__xstat", "__lxstat", "open64", "stat64", "fstat64", "lstat64", "mmap64",
    "truncate64", "ftruncate64", "creat64", "openat64", "mount", "umount", "umount2", "swapon",
    "swapoff"]

/-- The other functions of the C library, which end the process, divide zero by zero, or return
something else. -/
def particularFunctions : List Export :=
  [⟨"exit", true, .ends 0⟩, ⟨"_exit", true, .ends 0⟩, ⟨"quick_exit", true, .ends 0⟩,
    ⟨"abort", true, .raises .abrt⟩, ⟨"__stack_chk_fail", true, .raises .abrt⟩,
    ⟨"div", true, .raises .fpe⟩, ⟨"ldiv", true, .raises .fpe⟩, ⟨"lldiv", true, .raises .fpe⟩,
    ⟨"imaxdiv", true, .raises .fpe⟩, .returning 2 "iscntrl", .returning 2 "iswcntrl",
    .returning 1 "isascii", .returning 4096 "getpagesize", .returning 22 "posix_memalign",
    .returning 22 "posix_fallocate", .returning (-2) "getaddrinfo", .returning (-6) "getnameinfo"]

/-- The variables of the C library. -/
def libcVariables : List String :=
  [
    "stdin", "stdout", "stderr", "environ", "optarg", "optind", "opterr", "optopt", "timezone",
    "daylight", "tzname", "program_invocation_name", "program_invocation_short_name", "__environ",
    "_environ", "getdate_err", "errno"]

/-- The functions of the mathematical library. -/
def mathFunctions : List String :=
  [
    "sin", "cos", "tan", "asin", "acos", "atan", "atan2", "sinh", "cosh", "tanh", "sqrt", "cbrt",
    "pow", "exp", "exp2", "log", "log2", "log10", "floor", "ceil", "round", "trunc", "fabs", "fmod",
    "hypot", "fmin", "fmax", "sinf", "cosf", "sqrtf", "powf", "expf", "logf", "floorf", "ceilf",
    "fabsf", "fmodf", "asinh", "acosh", "atanh", "expm1", "log1p", "logb", "ilogb", "scalbln",
    "nextafter", "nexttoward", "nan", "fdim", "fma", "remainder", "remquo", "drem", "rint",
    "nearbyint", "lrint", "llrint", "lround", "llround", "erf", "erfc", "tgamma", "lgamma", "gamma",
    "lgamma_r", "j0", "j1", "jn", "y0", "y1", "yn", "significand", "exp10", "tanf", "asinf",
    "acosf", "atanf", "atan2f", "sinhf", "coshf", "tanhf", "asinhf", "acoshf", "atanhf", "exp2f",
    "exp10f", "expm1f", "log2f", "log10f", "log1pf", "logbf", "ilogbf", "cbrtf", "hypotf", "roundf",
    "truncf", "rintf", "nearbyintf", "lrintf", "llrintf", "lroundf", "llroundf", "fminf", "fmaxf",
    "fdimf", "fmaf", "remainderf", "remquof", "nextafterf", "erff", "erfcf", "tgammaf", "lgammaf",
    "nanf", "sinl", "cosl", "tanl", "asinl", "acosl", "atanl", "atan2l", "sinhl", "coshl", "tanhl",
    "sqrtl", "cbrtl", "powl", "expl", "exp2l", "expm1l", "logl", "log2l", "log10l", "log1pl",
    "floorl", "ceill", "roundl", "truncl", "rintl", "fabsl", "fmodl", "hypotl", "fminl", "fmaxl",
    "fmal", "erfl", "tgammal", "lgammal", "remainderl", "sincos", "sincosf", "sincosl",
    "fegetround", "fesetround", "feclearexcept", "feraiseexcept", "fetestexcept", "feholdexcept",
    "feupdateenv", "fegetenv", "fesetenv", "feenableexcept", "fedisableexcept", "cabs", "carg",
    "cexp", "clog", "cpow", "csqrt", "csin", "ccos", "ctan", "creal", "cimag", "conj", "cproj",
    "cabsf", "cexpf", "csqrtf"]

/-- The names of the other libraries that a host finds without a path. -/
def hostSystemLibraries : List String :=
  ["libc.so.6", "libdl.so.2", "libpthread.so.0", "librt.so.1", "libgcc_s.so.1",
    "ld-linux-x86-64.so.2"]

/-- The exports of the mathematical library. -/
def mathImage : Image := ⟨mathFunctions.map .function⟩

/-- The exports of the C library. -/
def libcImage : Image :=
  ⟨libcFunctions.map .function ++ faultingFunctions.map .faulting ++
    refusingFunctions.map (.returning (-1)) ++ particularFunctions ++
    libcVariables.map .variable⟩

/-- The loader of a usual host process. Libraries of the system export nothing that the host does
not, and the mathematical one is a part of it. -/
def Loader.host : Loader :=
  .start libcImage mathImage
    (⟨"libm.so.6", mathImage, some programBase⟩ ::
      hostSystemLibraries.map fun name => ⟨name, ⟨[]⟩, none⟩)

end LiveC
