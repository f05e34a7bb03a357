import ReadAhead.Mount
import ReadAhead.Pool.Loans
import ReadAhead.Settings.Json
import ReadAhead.Source.Pattern
import ReadAhead.Proofs.Source.Connection
import ReadAhead.Proofs.Source.Pattern
import ReadAhead.Proofs.Pool
import ReadAhead.Proofs.Catalog.Journal
import ReadAhead.Proofs.Catalog.Traffic
import ReadAhead.Proofs.Ring.Wakes
import ReadAhead.Proofs.Ring.Views
import ReadAhead.Proofs.Ring.Representation
import ReadAhead.Proofs.Ring.Chunks
import ReadAhead.Proofs.Ring.Words
import ReadAhead.Proofs.Tier
import ReadAhead.Proofs.Settings
import ReadAhead.Proofs.Supply.Copy
import ReadAhead.Proofs.Supply.Finish
import ReadAhead.Proofs.Supply.Carries
import ReadAhead.Proofs.Session.Refinement
import ReadAhead.Proofs.Session.Closing
import ReadAhead.Proofs.Session.Extent
import ReadAhead.Proofs.Session.Words
import ReadAhead.Proofs.Session.Ceiling
import ReadAhead.Proofs.Session.Connections
import ReadAhead.Proofs.Session.Sequential
import ReadAhead.Proofs.Session.Short
import ReadAhead.Proofs.Session.Resident
import ReadAhead.Proofs.Session.Attribution
import ReadAhead.Proofs.Session.Lifecycle
import ReadAhead.Proofs.Session.Traceless
