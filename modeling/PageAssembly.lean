import PageAssembly.Cache.Reading
import PageAssembly.Main
import PageAssembly.Proofs.Alias.References
import PageAssembly.Proofs.Alias.Seams
import PageAssembly.Proofs.Alias.Syntaxes
import PageAssembly.Proofs.Assembly.Leftovers
import PageAssembly.Proofs.Cache.History
import PageAssembly.Proofs.Chunk.Batches
import PageAssembly.Proofs.Chunk.Overlap
import PageAssembly.Proofs.Chunk.Recency
import PageAssembly.Proofs.CommandLine.Protected
import PageAssembly.Proofs.Directive.Writing
import PageAssembly.Proofs.Exchange.Numbers
import PageAssembly.Proofs.Inclusion.Calls
import PageAssembly.Proofs.Inclusion.Cycle
import PageAssembly.Proofs.Inclusion.Endless
import PageAssembly.Proofs.Inclusion.Identity
import PageAssembly.Proofs.Inclusion.Inert
import PageAssembly.Proofs.Inclusion.Refetching
import PageAssembly.Proofs.Inclusion.Retry
import PageAssembly.Proofs.Inclusion.Scope
import PageAssembly.Proofs.Inclusion.Session
import PageAssembly.Proofs.Inclusion.Wrapped
import PageAssembly.Proofs.Site.Confinement
import PageAssembly.Proofs.Verbatim.Undoing
import PageAssembly.Proofs.Waterfall.Decoding
import PageAssembly.Proofs.Waterfall.Spelling
import PageAssembly.Proofs.Waterfall.Surroundings
import PageAssembly.Proofs.Waterfall.Width
